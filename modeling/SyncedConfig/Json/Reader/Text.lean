import SyncedConfig.Bytes.Hex
import SyncedConfig.Bytes.Utf8
import SyncedConfig.Json.Reader.Basic

/-!
# Reading texts

Octets between quotes stand for themselves except behind a backslash. A character above
U+FFFF may be written as two escapes, and half of such a pair is refused. The octets must
decode as UTF-8 as a whole, which is checked when the closing quote has been read.
-/
namespace SyncedConfig.Json.Reader

/-- How far the reading of a text has come. -/
inductive TextSpot
  | plain
  | escape
  /-- The digits of an escape, behind the first half of a pair if one was read. -/
  | digits (high? : Option Nat) (seen : Bytes)
  | afterHigh (high : Nat)
  | afterHighEscape (high : Nat)

/-- The octet that a letter behind a backslash stands for. -/
def unescape? (b : UInt8) : Option UInt8 :=
  if b = Ascii.quote || b = Ascii.backslash || b = Ascii.slash then some b
  else if b = Ascii.octet 'b' then some 0x08
  else if b = Ascii.octet 'f' then some 0x0c
  else if b = Ascii.octet 'n' then some 0x0a
  else if b = Ascii.octet 'r' then some 0x0d
  else if b = Ascii.octet 't' then some 0x09
  else none

def hexNumber? (digits : Bytes) : Option Nat :=
  digits.foldlM (fun n b => do return n * 16 + (← Hex.digitValue? (Char.ofNat b.toNat))) 0

def isHighSurrogate (n : Nat) : Bool := 0xd800 ≤ n && n ≤ 0xdbff

def isLowSurrogate (n : Nat) : Bool := 0xdc00 ≤ n && n ≤ 0xdfff

/-- The character that two halves of a pair make up. -/
def joinSurrogates (high low : Nat) : Char :=
  Char.ofNat ((high - 0xd800) * 0x400 + (low - 0xdc00) + 0x10000)

/-- What an escape adds to a text that is kept in reverse. -/
def pushChar (c : Char) (out : Bytes) : Bytes := (String.utf8EncodeChar c).reverse ++ out

/-- Reads up to the closing quote, keeping the octets in reverse. -/
def textOctets (out : Bytes) : TextSpot → Bytes → Except Fault (Bytes × Bytes)
  | _, [] => .error (.placed .endInText 0)
  | .plain, b :: rest =>
    if b = Ascii.quote then .ok (out.reverse, rest)
    else if b = Ascii.backslash then textOctets out .escape rest
    else if Ascii.isControl b then .error (.placed .controlCharacter rest.length)
    else textOctets (b :: out) .plain rest
  | .escape, b :: rest =>
    if b = Ascii.octet 'u' then textOctets out (.digits none []) rest
    else
      match unescape? b with
      | some c => textOctets (c :: out) .plain rest
      | none => .error (.placed .badEscape rest.length)
  | .digits high? seen, b :: rest =>
    if seen.length < 3 then textOctets out (.digits high? (seen ++ [b])) rest
    else
      match hexNumber? (seen ++ [b]), high? with
      | none, _ => .error (.placed .badEscape rest.length)
      | some n, none =>
        if isLowSurrogate n then .error (.placed .loneSurrogate rest.length)
        else if isHighSurrogate n then textOctets out (.afterHigh n) rest
        else textOctets (pushChar (Char.ofNat n) out) .plain rest
      | some n, some high =>
        if isLowSurrogate n then textOctets (pushChar (joinSurrogates high n) out) .plain rest
        else .error (.placed .loneSurrogate rest.length)
  | .afterHigh high, b :: rest =>
    if b = Ascii.backslash then textOctets out (.afterHighEscape high) rest
    else .error (.placed .brokenSurrogate rest.length)
  | .afterHighEscape high, b :: rest =>
    if b = Ascii.octet 'u' then textOctets out (.digits (some high) []) rest
    else .error (.placed .brokenSurrogate rest.length)

def textBody : Reader String := fun input =>
  match textOctets [] .plain input with
  | .error fault => .error fault
  | .ok (octets, rest) =>
    let decoded := Utf8.decode octets
    match decoded.defect with
    | none => .ok (String.ofList decoded.chars, rest)
    | some _ => .error (.placed .badText (rest.length + (octets.length - decoded.validLength)))

/-- Reads a text whose opening quote comes next. -/
def textToken : Reader String := do
  advance
  textBody

end SyncedConfig.Json.Reader
