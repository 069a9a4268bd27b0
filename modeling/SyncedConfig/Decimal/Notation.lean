import SyncedConfig.Decimal.Integer
import SyncedConfig.Decimal.Shortest

/-!
# Decimal notation of doubles

The shortest digits of a double are written with a point if the first of them counts
between `10 ^ -5` and `10 ^ 15`, otherwise with an exponent that carries its sign. A point
always has a digit on both sides, an exponent needs no point.
-/
namespace SyncedConfig.Decimal

/-- The powers of ten of the first digit for which no exponent is written. -/
structure Positional where
  least : Int
  greatest : Int

def positional : Positional := ⟨-5, 15⟩

def zeros (n : Nat) : List Char := List.replicate n '0'

/-- Digits whose first one counts `10 ^ first`, written with a point. -/
def withPoint (digits : List Char) (first : Int) : List Char :=
  if first < 0 then '0' :: '.' :: zeros (-first - 1).toNat ++ digits
  else
    let whole := first.toNat + 1
    if digits.length ≤ whole then digits ++ zeros (whole - digits.length) ++ ['.', '0']
    else digits.take whole ++ '.' :: digits.drop whole

/-- Digits whose first one counts `10 ^ first`, written with an exponent. -/
def withExponent (digits : List Char) (first : Int) : List Char :=
  digits.take 1 ++ (if digits.length ≤ 1 then [] else '.' :: digits.drop 1) ++
    'e' :: (if first < 0 then '-' else '+') :: ofNat first.natAbs

def Scaled.text (x : Scaled) : List Char :=
  let digits := ofNat x.digits
  let first := x.exponent + digits.length - 1
  if positional.least ≤ first ∧ first ≤ positional.greatest then withPoint digits first
  else withExponent digits first

def ofFloat (x : Float) : List Char :=
  let bits := x.toBits
  let magnitude := Dyadic.ofBits bits
  let text := if magnitude.significand = 0 then ['0', '.', '0'] else magnitude.shortest.text
  if 0x8000000000000000 ≤ bits.toNat then '-' :: text else text

end SyncedConfig.Decimal
