import SyncedConfig.Bytes.Basic

/-!
# UTF-8

Text is encoded character by character. Decoding runs over the octets with the
range that the next one must lie in, and stops at the first octet outside it. What
was decoded by then is the longest valid beginning, and the defect says how many
octets of a broken character were still in order, or that the data ends inside one.
-/
namespace SyncedConfig.Utf8

def encode (text : List Char) : Bytes := text.flatMap String.utf8EncodeChar

def ofString (s : String) : Bytes := encode s.toList

/-- The first octets of a character have been read: `left` more follow the next one,
which lies between `low` and `high`. -/
structure Pending where
  left : Nat
  low : UInt8
  high : UInt8
  code : Nat
  seen : Nat

/-- What the first octet of a character announces. -/
inductive Lead
  | single (c : Char)
  | opens (p : Pending)
  | invalid

def Lead.ofByte (b : UInt8) : Lead :=
  if b < 0x80 then .single (Char.ofNat b.toNat)
  else if b < 0xc2 then .invalid
  else if b < 0xe0 then .opens ⟨0, 0x80, 0xbf, b.toNat - 0xc0, 1⟩
  else if b = 0xe0 then .opens ⟨1, 0xa0, 0xbf, 0, 1⟩
  else if b = 0xed then .opens ⟨1, 0x80, 0x9f, 0xd, 1⟩
  else if b < 0xf0 then .opens ⟨1, 0x80, 0xbf, b.toNat - 0xe0, 1⟩
  else if b = 0xf0 then .opens ⟨2, 0x90, 0xbf, 0, 1⟩
  else if b < 0xf4 then .opens ⟨2, 0x80, 0xbf, b.toNat - 0xf0, 1⟩
  else if b = 0xf4 then .opens ⟨2, 0x80, 0x8f, 4, 1⟩
  else .invalid

/-- Why decoding stopped. -/
inductive Defect
  /-- A character breaks off after `length` octets, before one that cannot follow. -/
  | broken (length : Nat)
  /-- The data ends inside a character. -/
  | incomplete
  deriving DecidableEq

/-- The decoded beginning of some data, and what stopped the decoding if not its end. -/
structure Decoded where
  chars : List Char
  defect : Option Defect
  deriving DecidableEq

def Decoded.cons (c : Char) (d : Decoded) : Decoded := ⟨c :: d.chars, d.defect⟩

def decodeFrom : Option Pending → Bytes → Decoded
  | none, [] => ⟨[], none⟩
  | some _, [] => ⟨[], some .incomplete⟩
  | none, b :: rest =>
    match Lead.ofByte b with
    | .single c => (decodeFrom none rest).cons c
    | .opens p => decodeFrom (some p) rest
    | .invalid => ⟨[], some (.broken 1)⟩
  | some p, b :: rest =>
    if p.low ≤ b && b ≤ p.high then
      let code := p.code * 64 + (b.toNat - 0x80)
      match p.left with
      | 0 => (decodeFrom none rest).cons (Char.ofNat code)
      | n + 1 => decodeFrom (some ⟨n, 0x80, 0xbf, code, p.seen + 1⟩) rest
    else ⟨[], some (.broken p.seen)⟩

def decode (data : Bytes) : Decoded := decodeFrom none data

def decode? (data : Bytes) : Option (List Char) :=
  let d := decode data
  if d.defect.isNone then some d.chars else none

def Decoded.validLength (d : Decoded) : Nat := (encode d.chars).length

def Defect.message (start : Nat) : Defect → String
  | .broken n => s!"invalid utf-8 sequence of {n} bytes from index {start}"
  | .incomplete => s!"incomplete utf-8 byte sequence from index {start}"

/-- The string that some data encodes, or the description of its first defect. -/
def toText (data : Bytes) : Except String String :=
  let d := decode data
  match d.defect with
  | none => .ok (String.ofList d.chars)
  | some defect => .error (defect.message d.validLength)

end SyncedConfig.Utf8
