/-!
# Bytes

Raw data is a list of octets. The octets that structure a document have names,
so that readers and writers speak of a quote or a bracket and not of a number.
-/
namespace SyncedConfig

abbrev Bytes := List UInt8

namespace Ascii

abbrev quote : UInt8 := 0x22
abbrev plus : UInt8 := 0x2b
abbrev comma : UInt8 := 0x2c
abbrev minus : UInt8 := 0x2d
abbrev point : UInt8 := 0x2e
abbrev slash : UInt8 := 0x2f
abbrev colon : UInt8 := 0x3a
abbrev openList : UInt8 := 0x5b
abbrev backslash : UInt8 := 0x5c
abbrev closeList : UInt8 := 0x5d
abbrev openObject : UInt8 := 0x7b
abbrev closeObject : UInt8 := 0x7d

/-- The octet of a character below U+0080. -/
abbrev octet (c : Char) : UInt8 := UInt8.ofNat c.toNat

def isDigit (b : UInt8) : Bool := 0x30 ≤ b && b ≤ 0x39

def isControl (b : UInt8) : Bool := b < 0x20

def digit (b : UInt8) : Nat := b.toNat - 0x30

end Ascii
end SyncedConfig
