/-!
# The shortest decimal of a double

A double stands for every real that rounds to it. Among the decimals that do, the
shortest lies on the coarsest grid of multiples of a power of ten that meets this
interval, and of the two points of that grid around the double the nearer one is taken,
the even one when they are equally near.
-/
namespace SyncedConfig.Decimal

/-- The real `significand * 2 ^ exponent`. -/
structure Dyadic where
  significand : Nat
  exponent : Int

/-- The leading bit of a significand, which the bits of a double leave out. -/
abbrev hiddenBit : Nat := 0x10000000000000

def Dyadic.ofBits (bits : UInt64) : Dyadic :=
  let fraction : Nat := bits.toNat % hiddenBit
  let biased : Nat := bits.toNat / hiddenBit % 2048
  if biased = 0 then ⟨fraction, -1074⟩ else ⟨fraction + hiddenBit, (biased : Int) - 1075⟩

/-- The decimal `digits * 10 ^ exponent`. -/
structure Scaled where
  digits : Nat
  exponent : Int
  deriving DecidableEq

/-- The interval that rounds to a double, in quarters of the gap above it. -/
structure Rounding where
  least : Nat
  middle : Nat
  greatest : Nat
  closed : Bool

/-- The gap below a power of two is half the gap above it, unless it is the smallest. -/
def Dyadic.rounding (x : Dyadic) : Rounding where
  least := 4 * x.significand - (if x.significand = hiddenBit ∧ x.exponent ≠ -1074 then 1 else 2)
  middle := 4 * x.significand
  greatest := 4 * x.significand + 2
  closed := x.significand % 2 = 0

/-- The point of the grid `10 ^ k` that is nearest to the double, if it rounds to it. -/
def Dyadic.onGrid? (x : Dyadic) (k : Int) : Option Nat :=
  let r := x.rounding
  let up := Nat.pow 2 (x.exponent - 2).toNat * Nat.pow 10 (-k).toNat
  let step := Nat.pow 10 k.toNat * Nat.pow 2 (2 - x.exponent).toNat
  let fits (c : Nat) : Bool :=
    if r.closed then r.least * up ≤ c * step && c * step ≤ r.greatest * up
    else r.least * up < c * step && c * step < r.greatest * up
  let v := r.middle * up
  let c := v / step
  let below := v - c * step
  let above := (c + 1) * step - v
  let nearer := if below < above || (below = above && c % 2 = 0) then c else c + 1
  let further := if nearer = c then c + 1 else c
  if fits nearer then some nearer else if fits further then some further else none

/-- Tries `n` grids, starting with `10 ^ k` and then ever finer. -/
def Dyadic.coarsest (x : Dyadic) (k : Int) : Nat → Scaled
  | 0 => ⟨x.significand, k⟩
  | n + 1 =>
    match x.onGrid? k with
    | some c => ⟨c, k⟩
    | none => x.coarsest (k - 1) n

def Dyadic.shortest (x : Dyadic) : Scaled := x.coarsest 309 640

end SyncedConfig.Decimal
