import SyncedConfig.Bytes.Basic

/-!
# Decimal integers

An integer is written with its digits alone, after a minus sign if it is negative.
-/
namespace SyncedConfig.Decimal

def ofNat (n : Nat) : List Char := Nat.toDigits 10 n

def ofInt : Int → List Char
  | .ofNat n => ofNat n
  | .negSucc n => '-' :: ofNat (n + 1)

/-- The number that a row of digits denotes after the digits of `start`. -/
def value (start : Nat) (digits : Bytes) : Nat :=
  digits.foldl (fun n b => n * 10 + Ascii.digit b) start

end SyncedConfig.Decimal
