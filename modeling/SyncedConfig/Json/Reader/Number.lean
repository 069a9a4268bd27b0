import SyncedConfig.Json.Reader.Basic

/-!
# Reading numbers

A number without point and exponent is an integer if it lies between `-2 ^ 63` and
`2 ^ 64`. Any other is a double, computed from as many leading digits as a 64-bit word
holds and a power of ten that makes up for the digits left out. A minus zero is a double.
-/
namespace SyncedConfig.Json

inductive Number
  | integer (n : Int)
  | float (x : Float)

def Number.found : Number → Found
  | .integer n => .integer n
  | .float x => .float x

namespace Reader

/-- Appends digits to a number while it stays below `2 ^ 64`, and counts those left over. -/
def absorb (n : Nat) : Bytes → Nat × Nat
  | [] => (n, 0)
  | b :: rest =>
    if n * 10 + Ascii.digit b < UInt64.size then absorb (n * 10 + Ascii.digit b) rest
    else (n, rest.length + 1)

def powerOfTen (n : Nat) : Float := Float.ofScientific 1 false n

def divideTimes (x : Float) : Nat → Float
  | 0 => x
  | k + 1 => if x == 0.0 then x else divideTimes (x / powerOfTen 308) k

/-- Divides by a power of ten, in steps that a double can express. -/
def divideByPower (x : Float) (n : Nat) : Float :=
  let steps := (n - 1) / 308
  divideTimes x steps / powerOfTen (n - 308 * steps)

/-- The double nearest to `significand * 10 ^ exponent` up to the rounding of two steps, unless
it is infinite. -/
def scale? (significand : Nat) (exponent : Int) : Option Float :=
  let x := (UInt64.ofNat significand).toFloat
  if exponent < 0 then some (divideByPower x exponent.natAbs)
  else if exponent ≤ 308 then
    let y := x * powerOfTen exponent.natAbs
    if y.isInf then none else some y
  else if significand = 0 then some x
  else none

def double (negative : Bool) (significand : Nat) (exponent : Int) : Reader Number :=
  match scale? significand exponent with
  | some x => return .float (if negative then -x else x)
  | none => fail .numberTooLarge

/-- Takes digits while their number stays below `2 ^ 31`. The digit that exceeds this is
taken too, but makes the number unknown. -/
def exponentDigits (n : Nat) : Bytes → Option Nat × Bytes
  | [] => (some n, [])
  | b :: rest =>
    if Ascii.isDigit b then
      if n * 10 + Ascii.digit b < 0x80000000 then exponentDigits (n * 10 + Ascii.digit b) rest
      else (none, rest)
    else (some n, b :: rest)

def exponentBody (negative : Bool) (significand : Nat) (base : Int) (minus : Bool) :
    Reader Number
  | [] => .error (.placed .endInValue 0)
  | b :: rest =>
    if Ascii.isDigit b then
      match exponentDigits (Ascii.digit b) rest with
      | (some e, rest) => double negative significand (if minus then base - e else base + e) rest
      | (none, rest) =>
        if significand ≠ 0 ∧ ¬minus then .error (.placed .numberTooLarge rest.length)
        else .ok (.float (if negative then -0.0 else 0.0), rest.dropWhile Ascii.isDigit)
    else .error (.placed .badNumber rest.length)

def exponentPart (negative : Bool) (significand : Nat) (base : Int) : Reader Number
  | b :: rest =>
    if b = Ascii.octet 'e' || b = Ascii.octet 'E' then
      match rest with
      | s :: digits =>
        if s = Ascii.plus then exponentBody negative significand base false digits
        else if s = Ascii.minus then exponentBody negative significand base true digits
        else exponentBody negative significand base false rest
      | [] => exponentBody negative significand base false rest
    else double negative significand base (b :: rest)
  | [] => double negative significand base []

def fractionPart (negative : Bool) (significand : Nat) (base : Int) : Reader Number := fun input =>
  match input.takeWhile Ascii.isDigit with
  | [] => failNext (if input.isEmpty then .endInValue else .badNumber) input
  | digits =>
    let (n, left) := absorb significand digits
    exponentPart negative n (base - (digits.length - left : Nat)) (input.dropWhile Ascii.isDigit)

/-- The integer of a sign and digits, or a double if it is out of range. -/
def signed (negative : Bool) (n : Nat) : Number :=
  if ¬negative then .integer n
  else if n = 0 ∨ 0x8000000000000000 < n then .float (-(UInt64.ofNat n).toFloat)
  else .integer (-n)

/-- Reads what follows the digits before the point, of which `left` are not in `n`. -/
def afterWhole (negative : Bool) (n left : Nat) : Reader Number := fun input =>
  match input with
  | b :: rest =>
    if b = Ascii.point then fractionPart negative n left rest
    else if b = Ascii.octet 'e' || b = Ascii.octet 'E' then exponentPart negative n left input
    else if left = 0 then .ok (signed negative n, input)
    else double negative n left input
  | [] => if left = 0 then .ok (signed negative n, input) else double negative n left input

def magnitude (negative : Bool) : Reader Number
  | [] => .error (.placed .endInValue 0)
  | b :: rest =>
    if b = 0x30 then
      if rest.head?.any Ascii.isDigit then failNext .badNumber rest
      else afterWhole negative 0 0 rest
    else if Ascii.isDigit b then
      let digits := (b :: rest).takeWhile Ascii.isDigit
      let (n, left) := absorb 0 digits
      afterWhole negative n left ((b :: rest).dropWhile Ascii.isDigit)
    else .error (.placed .badNumber rest.length)

/-- Reads a number that starts with the next octet. -/
def number : Reader Number := fun input =>
  match input with
  | b :: rest => if b = Ascii.minus then magnitude true rest else magnitude false input
  | [] => magnitude false []

end Reader
end SyncedConfig.Json
