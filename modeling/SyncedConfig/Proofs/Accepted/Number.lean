import Mathlib.Data.List.Induction
import SyncedConfig.Proofs.Accepted.Basic
import SyncedConfig.Proofs.Reading.Number

/-!
# An integer that is read is written so

A number with a point or an exponent is no integer, whatever its value, and none starts with a zero
that could be left out. So there is one way to write an integer, up to blanks.
-/
namespace SyncedConfig

namespace Decimal

theorem ofNat_digit {b : UInt8} (h : Ascii.isDigit b = true) :
    Ascii.digit b < 10 ∧ UInt8.ofNat (0x30 + Ascii.digit b) = b := by
  simp only [Ascii.isDigit, UInt8.le_iff_toNat_le, UInt8.reduceToNat, Bool.and_eq_true,
    decide_eq_true_eq] at h
  have hcode : 0x30 + Ascii.digit b = b.toNat := by
    rw [Ascii.digit]
    omega
  rw [hcode, UInt8.ofNat_toNat, Ascii.digit]
  exact ⟨by omega, rfl⟩

theorem value_concat (digits : Bytes) (b : UInt8) :
    value 0 (digits ++ [b]) = value 0 digits * 10 + Ascii.digit b := by
  rw [value, List.foldl_append]
  rfl

/-- Digits that do not start with a zero are those of the number that they denote. -/
theorem octets_value {digits : Bytes} (hne : digits ≠ [])
    (hdigits : ∀ b ∈ digits, Ascii.isDigit b = true) (hfirst : digits.head? ≠ some 0x30) :
    0 < value 0 digits ∧ octets (value 0 digits) = digits := by
  induction digits using List.reverseRecOn with
  | nil => exact absurd rfl hne
  | append_singleton digits b ih =>
    have hdigit := hdigits b (List.mem_append_right _ (List.mem_singleton_self b))
    obtain ⟨hless, hb⟩ := ofNat_digit hdigit
    rw [value_concat]
    cases digits with
    | nil =>
      have hvalue : value 0 [] = 0 := rfl
      have hpos : Ascii.digit b ≠ 0 := by
        intro hzero
        rw [hzero] at hb
        exact hfirst (congrArg some hb.symm)
      rw [hvalue, Nat.zero_mul, Nat.zero_add, octets_of_lt hless, hb]
      exact ⟨Nat.pos_of_ne_zero hpos, rfl⟩
    | cons first digits =>
      obtain ⟨hpos, hoctets⟩ := ih (List.cons_ne_nil _ _)
        (fun b hb => hdigits b (List.mem_append_left _ hb)) hfirst
      have hfront : (value 0 (first :: digits) * 10 + Ascii.digit b) / 10 =
          value 0 (first :: digits) := by omega
      have hlast : (value 0 (first :: digits) * 10 + Ascii.digit b) % 10 = Ascii.digit b := by omega
      rw [octets_of_le (by omega), hfront, hlast, hb, hoctets]
      exact ⟨by omega, rfl⟩

end Decimal

namespace Json.Reader

variable {negative : Bool} {significand n left : Nat} {base i : Int} {input rest : Bytes}

theorem exponentBody_ne_integer (minus : Bool) :
    exponentBody negative significand base minus input ≠ .ok (.integer i, rest) := by
  fun_cases exponentBody negative significand base minus input with
  | case2 => exact double_ne_integer _ _ _ _ _ _
  | _ => nofun

theorem exponentPart_ne_integer :
    exponentPart negative significand base input ≠ .ok (.integer i, rest) := by
  fun_cases exponentPart negative significand base input with
  | case5 | case6 => exact double_ne_integer _ _ _ _ _ _
  | _ => exact exponentBody_ne_integer _

theorem fractionPart_ne_integer :
    fractionPart negative significand base input ≠ .ok (.integer i, rest) := by
  rw [fractionPart]
  split
  next => nofun
  next => exact exponentPart_ne_integer

/-- Only where all digits fit a word, and nothing comes behind them, there is an integer. -/
theorem of_afterWhole (h : afterWhole negative n left input = .ok (.integer i, rest)) :
    left = 0 ∧ input = rest ∧ signed negative n = .integer i := by
  revert h
  fun_cases afterWhole negative n left input with
  | case1 => exact fun h => absurd h fractionPart_ne_integer
  | case2 => exact fun h => absurd h exponentPart_ne_integer
  | case3 | case5 =>
    intro h
    simp_all
  | case4 | case6 => exact fun h => absurd h (double_ne_integer _ _ _ _ _ _)

theorem absorb_of_left_eq_zero {start : Nat} {digits : Bytes} (h : (absorb start digits).2 = 0) :
    (absorb start digits).1 = Decimal.value start digits := by
  induction digits generalizing start with
  | nil => rfl
  | cons b digits ih =>
    rw [absorb] at h ⊢
    split at h
    next hb =>
      rw [if_pos hb, ih h]
      rfl
    next => cases h

theorem exists_of_magnitude (h : magnitude negative input = .ok (.integer i, rest)) :
    ∃ n, input = Decimal.octets n ++ rest ∧ signed negative n = .integer i := by
  cases input with
  | nil => cases h
  | cons b input =>
    rw [magnitude] at h
    split at h
    next hzero =>
      split at h
      next => cases h
      next =>
        obtain ⟨-, rfl, hsigned⟩ := of_afterWhole h
        exact ⟨0, by rw [hzero]; rfl, hsigned⟩
    next hzero =>
      split at h
      next hdigit =>
        dsimp only at h
        obtain ⟨hleft, hrest, hsigned⟩ := of_afterWhole h
        have hdigits : ∀ b' ∈ (b :: input).takeWhile Ascii.isDigit, Ascii.isDigit b' = true :=
          List.all_eq_true.1 (List.all_takeWhile ..)
        have htake : (b :: input).takeWhile Ascii.isDigit =
            b :: input.takeWhile Ascii.isDigit := List.takeWhile_cons_of_pos hdigit
        have hfirst : ((b :: input).takeWhile Ascii.isDigit).head? ≠ some 0x30 := by
          rw [htake, List.head?_cons, ne_eq, Option.some.injEq]
          exact hzero
        obtain ⟨-, hoctets⟩ := Decimal.octets_value (htake ▸ List.cons_ne_nil _ _) hdigits hfirst
        rw [absorb_of_left_eq_zero hleft] at hsigned
        refine ⟨_, ?_, hsigned⟩
        rw [hoctets, ← hrest, List.takeWhile_append_dropWhile]
      next => cases h

theorem ofInt_of_signed {octets : Bytes} (h : signed negative n = .integer i) :
    Utf8.encode (Decimal.ofInt i) ++ octets =
      (if negative then [Ascii.minus] else []) ++ (Decimal.octets n ++ octets) := by
  cases negative with
  | false =>
    cases h
    rfl
  | true =>
    rw [signed, if_neg (by decide)] at h
    split at h
    next => cases h
    next hn =>
      cases h
      obtain ⟨n, rfl⟩ := Nat.exists_eq_succ_of_ne_zero fun hzero => hn (.inl hzero)
      rfl

/-- What is taken for an integer is its digits, behind a minus if it is negative. -/
theorem eq_of_number (h : number input = .ok (.integer i, rest)) :
    input = Utf8.encode (Decimal.ofInt i) ++ rest := by
  cases input with
  | nil => cases h
  | cons b input =>
    rw [number] at h
    split at h
    next hb =>
      obtain ⟨n, rfl, hsigned⟩ := exists_of_magnitude h
      rw [ofInt_of_signed hsigned, hb]
      rfl
    next =>
      obtain ⟨n, hinput, hsigned⟩ := exists_of_magnitude h
      rw [ofInt_of_signed hsigned, hinput]
      rfl

theorem takesOnly_integer (least greatest : Int) (expected : String) :
    TakesOnly (integer least greatest expected) fun n octets =>
      least ≤ n ∧ n ≤ greatest ∧ octets = Utf8.encode (Decimal.ofInt n) := by
  refine takesOnly_of_start fun b input n rest _ h => ?_
  split at h
  next =>
    obtain ⟨found, left, hnumber, h⟩ := exists_of_bind h
    cases found with
    | float => cases h
    | integer i =>
      dsimp only at h
      split at h
      next hbounds =>
        obtain ⟨rfl, rfl⟩ := eq_of_pure h
        exact ⟨_, eq_of_number hnumber, hbounds.1, hbounds.2, rfl⟩
      next => cases h
  next => exact absurd h (mistyped_ne_ok _ _ _ _ _)

end Json.Reader
end SyncedConfig
