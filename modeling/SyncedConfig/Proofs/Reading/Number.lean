import SyncedConfig.Json.Reader.Number
import SyncedConfig.Proofs.Reading.Basic
import SyncedConfig.Proofs.Reading.Utf8

/-!
# A printed integer is read back

The digits of a number denote it and do not start with a zero unless there is only one. As
long as the number fits 64 bits, the reader takes all its digits up to whatever ends a value,
and the sign decides which integer they make.
-/
namespace SyncedConfig

namespace Decimal

def octets (n : Nat) : Bytes := Utf8.encode (ofNat n)

theorem encode_digitChar {n : Nat} (h : n < 10) :
    Utf8.encode [Nat.digitChar n] = [UInt8.ofNat (0x30 + n)] := by
  have hn := Nat.toNat_digitChar_of_lt_ten h
  rw [Utf8.encode_cons, Utf8.encode_nil, List.append_nil, Utf8.utf8EncodeChar_ascii (by omega), hn]

theorem octets_of_lt {n : Nat} (h : n < 10) : octets n = [UInt8.ofNat (0x30 + n)] := by
  rw [octets, ofNat, Nat.toDigits_of_lt_base h, encode_digitChar h]

theorem octets_of_le {n : Nat} (h : 10 ≤ n) :
    octets n = octets (n / 10) ++ [UInt8.ofNat (0x30 + n % 10)] := by
  rw [octets, ofNat, Nat.toDigits_of_base_le (by decide) h, Utf8.encode_append,
    encode_digitChar (Nat.mod_lt n (by decide)), octets, ofNat]

theorem isDigit_ofNat {n : Nat} (h : n < 10) : Ascii.isDigit (UInt8.ofNat (0x30 + n)) = true := by
  have hn := Utf8.toNat_ofNat (show 0x30 + n < 0x100 by omega)
  simp only [Ascii.isDigit, UInt8.le_iff_toNat_le, hn, Bool.and_eq_true, decide_eq_true_eq]
  exact ⟨Nat.le_add_right .., show 0x30 + n ≤ 0x39 by omega⟩

theorem digit_ofNat {n : Nat} (h : n < 10) : Ascii.digit (UInt8.ofNat (0x30 + n)) = n := by
  rw [Ascii.digit, Utf8.toNat_ofNat (by omega), Nat.add_sub_cancel_left]

theorem isDigit_of_mem_octets {n : Nat} {b : UInt8} (h : b ∈ octets n) :
    Ascii.isDigit b = true := by
  induction n using Nat.strongRecOn with
  | _ n ih =>
    by_cases hn : n < 10
    · rw [octets_of_lt hn, List.mem_singleton] at h
      exact h ▸ isDigit_ofNat hn
    · rw [octets_of_le (Nat.le_of_not_lt hn), List.mem_append, List.mem_singleton] at h
      rcases h with h | rfl
      · exact ih (n / 10) (by omega) h
      · exact isDigit_ofNat (Nat.mod_lt n (by decide))

theorem value_octets (n : Nat) : value 0 (octets n) = n := by
  induction n using Nat.strongRecOn with
  | _ n ih =>
    by_cases hn : n < 10
    · rw [octets_of_lt hn, value, List.foldl_cons, digit_ofNat hn, List.foldl_nil, Nat.zero_mul,
        Nat.zero_add]
    · have last := digit_ofNat (Nat.mod_lt n (by decide : 0 < 10))
      have front := ih (n / 10) (by omega)
      rw [value] at front ⊢
      rw [octets_of_le (Nat.le_of_not_lt hn), List.foldl_append, front, List.foldl_cons, last,
        List.foldl_nil]
      omega

/-- The first digit of a number is a zero only if the number is. -/
theorem octets_eq_cons {n : Nat} (h : 0 < n) :
    ∃ b rest, octets n = b :: rest ∧ b ≠ 0x30 := by
  induction n using Nat.strongRecOn with
  | _ n ih =>
    by_cases hn : n < 10
    · refine ⟨_, [], octets_of_lt hn, fun hb => ?_⟩
      have hzero := congrArg UInt8.toNat hb
      rw [Utf8.toNat_ofNat (by omega)] at hzero
      simp at hzero
      omega
    · obtain ⟨b, rest, hoctets, hb⟩ := ih (n / 10) (by omega) (by omega)
      refine ⟨b, rest ++ [UInt8.ofNat (0x30 + n % 10)], ?_, hb⟩
      rw [octets_of_le (Nat.le_of_not_lt hn), hoctets, List.cons_append]

theorem octets_zero : octets 0 = [0x30] := rfl

theorem octets_ne_nil (n : Nat) : octets n ≠ [] := by
  rcases Nat.eq_zero_or_pos n with rfl | hn
  · exact List.cons_ne_nil _ _
  · obtain ⟨b, rest, hoctets, -⟩ := octets_eq_cons hn
    exact hoctets ▸ List.cons_ne_nil b rest

theorem le_value (start : Nat) (digits : Bytes) : start ≤ value start digits := by
  induction digits generalizing start with
  | nil => exact Nat.le_refl start
  | cons b digits ih => exact Nat.le_trans (by omega) (ih (start * 10 + Ascii.digit b))

end Decimal

namespace Json.Reader

/-- Digits are absorbed as long as the number that they denote fits. -/
theorem absorb_of_lt {start : Nat} {digits : Bytes}
    (h : Decimal.value start digits < UInt64.size) :
    absorb start digits = (Decimal.value start digits, 0) := by
  induction digits generalizing start with
  | nil => rfl
  | cons b digits ih =>
    have hb : start * 10 + Ascii.digit b < UInt64.size :=
      Nat.lt_of_le_of_lt (Decimal.le_value _ digits) h
    rw [absorb, if_pos hb, ih h]
    rfl

theorem absorb_of_le {start : Nat} {digits : Bytes} (hstart : start < UInt64.size)
    (h : UInt64.size ≤ Decimal.value start digits) : (absorb start digits).2 ≠ 0 := by
  induction digits generalizing start with
  | nil => exact absurd hstart (Nat.not_lt.2 h)
  | cons b digits ih =>
    rw [absorb]
    split
    next hb => exact ih hb h
    next => exact Nat.succ_ne_zero _

/-- What ends a value does not continue a number. -/
theorem Ends.head {b : UInt8} {rest : Bytes} (h : Ends (b :: rest)) :
    Ascii.isDigit b = false ∧ b ≠ Ascii.point ∧ b ≠ Ascii.octet 'e' ∧ b ≠ Ascii.octet 'E' := by
  rcases h b rfl with h | rfl | rfl | rfl
  · simp only [isBlank, Bool.or_eq_true, decide_eq_true_eq] at h
    rcases h with ((rfl | rfl) | rfl) | rfl <;> decide
  · decide
  · decide
  · decide

theorem afterWhole_of_ends (negative : Bool) (n left : Nat) {rest : Bytes} (h : Ends rest) :
    afterWhole negative n left rest =
      if left = 0 then .ok (signed negative n, rest) else double negative n left rest := by
  cases rest with
  | nil => rfl
  | cons b rest =>
    obtain ⟨-, hpoint, he, hE⟩ := h.head
    simp only [afterWhole, hpoint, he, hE, if_false, decide_false, Bool.or_false,
      Bool.false_eq_true]

theorem takeWhile_isDigit (n : Nat) {rest : Bytes} (h : Ends rest) :
    (Decimal.octets n ++ rest).takeWhile Ascii.isDigit = Decimal.octets n ∧
      (Decimal.octets n ++ rest).dropWhile Ascii.isDigit = rest := by
  have digits : ∀ b ∈ Decimal.octets n, Ascii.isDigit b = true :=
    fun b hb => Decimal.isDigit_of_mem_octets hb
  rw [List.takeWhile_append_of_pos digits, List.dropWhile_append_of_pos digits]
  cases rest with
  | nil => exact ⟨List.append_nil _, rfl⟩
  | cons b rest =>
    have hb := h.head.1
    simp [hb]

/-- All digits of a number but a zero are taken before what follows is looked at. -/
theorem magnitude_of_pos (negative : Bool) {n : Nat} (hn : 0 < n) {rest : Bytes} (h : Ends rest) :
    magnitude negative (Decimal.octets n ++ rest) =
      afterWhole negative (absorb 0 (Decimal.octets n)).1 (absorb 0 (Decimal.octets n)).2 rest := by
  obtain ⟨b, more, hoctets, hb⟩ := Decimal.octets_eq_cons hn
  have hdigit : Ascii.isDigit b = true :=
    Decimal.isDigit_of_mem_octets (hoctets ▸ List.mem_cons_self ..)
  obtain ⟨htake, hdrop⟩ := takeWhile_isDigit n h
  rw [hoctets, List.cons_append] at htake hdrop ⊢
  rw [magnitude, if_neg hb, if_pos hdigit, htake, hdrop]

theorem magnitude_octets (negative : Bool) {n : Nat} (hn : n < UInt64.size) {rest : Bytes}
    (h : Ends rest) :
    magnitude negative (Decimal.octets n ++ rest) = .ok (signed negative n, rest) := by
  rcases Nat.eq_zero_or_pos n with rfl | hpos
  · have hrest : rest.head?.any Ascii.isDigit = false := by
      cases rest with
      | nil => rfl
      | cons b rest => exact h.head.1
    rw [Decimal.octets_zero, List.singleton_append, magnitude, if_pos rfl, hrest,
      if_neg Bool.false_ne_true, afterWhole_of_ends negative 0 0 h, if_pos rfl]
  · have habsorb : absorb 0 (Decimal.octets n) = (n, 0) := by
      rw [absorb_of_lt (by rwa [Decimal.value_octets]), Decimal.value_octets]
    rw [magnitude_of_pos negative hpos h, habsorb, afterWhole_of_ends negative n 0 h, if_pos rfl]

/-- A number without a sign is its magnitude. -/
theorem number_octets (n : Nat) (rest : Bytes) :
    number (Utf8.encode (Decimal.ofInt (.ofNat n)) ++ rest) =
      magnitude false (Decimal.octets n ++ rest) := by
  obtain ⟨b, more, hoctets⟩ := List.exists_cons_of_ne_nil (Decimal.octets_ne_nil n)
  have hb : b ≠ Ascii.minus := by
    rintro rfl
    exact absurd (Decimal.isDigit_of_mem_octets (hoctets ▸ List.mem_cons_self ..)) (by decide)
  change number (Decimal.octets n ++ rest) = _
  rw [hoctets, List.cons_append, number, if_neg hb]

/-- A printed integer that fits 64 bits, with or without a sign, is read back. -/
theorem number_ofInt {n : Int} (hlow : -0x8000000000000000 ≤ n) (hhigh : n ≤ 0xffffffffffffffff)
    {rest : Bytes} (h : Ends rest) :
    number (Utf8.encode (Decimal.ofInt n) ++ rest) = .ok (.integer n, rest) := by
  have size : UInt64.size = 0x10000000000000000 := rfl
  cases n with
  | ofNat n =>
    have hn : n < UInt64.size := by
      rw [Int.ofNat_eq_natCast] at hhigh
      omega
    rw [number_octets, magnitude_octets false hn h]
    rfl
  | negSucc n =>
    have hn : n + 1 < UInt64.size := by omega
    have hsigned : signed true (n + 1) = .integer (.negSucc n) := by
      have hfits : ¬ (n + 1 = 0 ∨ 0x8000000000000000 < n + 1) := by omega
      rw [signed, if_neg (by decide), if_neg hfits]
      rfl
    change number (Ascii.minus :: (Decimal.octets (n + 1) ++ rest)) = _
    rw [number, if_pos rfl, magnitude_octets true hn h, hsigned]

theorem double_ne_integer (negative : Bool) (significand : Nat) (exponent i : Int)
    (input rest : Bytes) : double negative significand exponent input ≠ .ok (.integer i, rest) := by
  rw [double]
  cases scale? significand exponent <;> nofun

theorem magnitude_ne_integer (negative : Bool) {n : Nat} (hn : UInt64.size ≤ n) {rest : Bytes}
    (h : Ends rest) (i : Int) (more : Bytes) :
    magnitude negative (Decimal.octets n ++ rest) ≠ .ok (.integer i, more) := by
  have hpos : 0 < n := Nat.lt_of_lt_of_le (by decide) hn
  have hleft : (absorb 0 (Decimal.octets n)).2 ≠ 0 :=
    absorb_of_le (by decide) (by rwa [Decimal.value_octets])
  rw [magnitude_of_pos negative hpos h, afterWhole_of_ends negative _ _ h, if_neg hleft]
  exact double_ne_integer negative _ _ i rest more

/-- No other printed integer is read as one. -/
theorem number_ne_integer {n : Int} (hn : n < -0x8000000000000000 ∨ 0xffffffffffffffff < n)
    {rest : Bytes} (h : Ends rest) (i : Int) (more : Bytes) :
    number (Utf8.encode (Decimal.ofInt n) ++ rest) ≠ .ok (.integer i, more) := by
  have size : UInt64.size = 0x10000000000000000 := rfl
  cases n with
  | ofNat n =>
    have hsize : UInt64.size ≤ n := by
      rw [Int.ofNat_eq_natCast] at hn
      omega
    rw [number_octets]
    exact magnitude_ne_integer false hsize h i more
  | negSucc n =>
    change number (Ascii.minus :: (Decimal.octets (n + 1) ++ rest)) ≠ _
    rw [number, if_pos rfl]
    by_cases hsize : UInt64.size ≤ n + 1
    · exact magnitude_ne_integer true hsize h i more
    · -- the digits fit a word, but with their sign they do not
      have hdouble : n + 1 = 0 ∨ 0x8000000000000000 < n + 1 := by omega
      rw [magnitude_octets true (Nat.lt_of_not_le hsize) h, signed, if_neg (by decide),
        if_pos hdouble]
      nofun

end Json.Reader
end SyncedConfig
