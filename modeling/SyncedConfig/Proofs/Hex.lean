import SyncedConfig.Proofs.CanonicalUrl
import SyncedConfig.Proofs.Dump.Octets
import SyncedConfig.Proofs.Reading.Utf8

/-!
# Hexadecimal text in either case

A digit has the same value in either case. So some text is read as octets exactly if it is the text
of these octets but for the case of its digits, and what is read at all are the texts of an even
number of digits.
-/
namespace SyncedConfig.Hex

variable {c : Char} {n : Nat} {text : List Char} {data : Bytes}

theorem toNat_lt_of_isDigit (h : isDigit c) : c.toNat < 128 := by
  simp only [isDigit, Char.isDigit, Bool.or_eq_true, Bool.and_eq_true, decide_eq_true_eq,
    Char.le_def, UInt32.le_iff_toNat_le, ge_iff_le] at h
  rcases h with (⟨-, h⟩ | ⟨-, h⟩) | ⟨-, h⟩
  · exact Nat.lt_of_le_of_lt h (by decide)
  · exact Nat.lt_of_le_of_lt h (by decide)
  · exact Nat.lt_of_le_of_lt h (by decide)

theorem isDigit_iff : isDigit c ↔ ∃ n, digitValue? c = some n := by
  simp only [isDigit, digitValue?]
  split
  next hdecimal => simp [hdecimal]
  split
  next hsmall => simp [hsmall]
  split
  next hcapital => simp [hcapital]
  next hdecimal hsmall hcapital => simp [hdecimal, hsmall, hcapital]

theorem toNat_le_toNat_toLower (c : Char) : c.toNat ≤ c.toLower.toNat := by
  by_cases h : c.isUpper
  · rw [ServerUrl.toNat_toLower h]
    exact Nat.le_add_right ..
  · rw [ServerUrl.toLower_of_not_isUpper h]

/-- A digit has a value exactly if it is the digit of this value but for its case. -/
theorem digitValue?_eq_some_iff : digitValue? c = some n ↔ n < 16 ∧ c.toLower = digitChar n := by
  by_cases hc : c.toNat < 128
  · obtain ⟨hvalue, hlt⟩ := Utf8.of_ascii (p := fun c => (∀ n < 16, digitValue? c = some n ↔
      c.toLower = digitChar n) ∧ ∀ n ∈ digitValue? c, n < 16) (by decide +kernel) hc
    exact ⟨fun h => ⟨hlt n h, (hvalue n (hlt n h)).1 h⟩, fun h => (hvalue n h.1).2 h.2⟩
  · refine iff_of_false (fun h => hc (toNat_lt_of_isDigit (isDigit_iff.2 ⟨n, h⟩))) ?_
    rintro ⟨hn, hlower⟩
    have hle := toNat_le_toNat_toLower c
    have hsmall := digitChar_lt n hn
    rw [hlower] at hle
    omega

theorem length_encode (data : Bytes) : (encode data).length = 2 * data.length := by
  induction data with
  | nil => rfl
  | cons b data ih =>
    simp only [encode, List.length_cons, ih]
    omega

/-- A text is read as the octets that are written like it but for the case of digits. -/
theorem decode?_eq_some_iff : decode? text = some data ↔ text.map Char.toLower = encode data := by
  fun_induction decode? text generalizing data with
  | case1 => cases data <;> simp [encode]
  | case2 c => cases data <;> simp [encode]
  | case3 high low rest ih =>
    cases data with
    | nil => simp [encode, Option.bind_eq_some_iff]
    | cons b data =>
      simp only [List.map_cons, encode, List.cons.injEq, Option.bind_eq_bind, Option.pure_def,
        Option.bind_eq_some_iff, Option.some.injEq, digitValue?_eq_some_iff, ih]
      have hb := b.toNat_lt
      constructor
      · rintro ⟨h, ⟨hh, hhigh⟩, l, ⟨hl, hlow⟩, data', hrest, rfl, rfl⟩
        have hvalue : (UInt8.ofNat (h * 16 + l)).toNat = h * 16 + l := by
          rw [UInt8.toNat_ofNat']
          omega
        have hdiv : (h * 16 + l) / 16 = h := by omega
        have hmod : (h * 16 + l) % 16 = l := by omega
        rw [hvalue, hdiv, hmod]
        exact ⟨hhigh, hlow, hrest⟩
      · rintro ⟨hhigh, hlow, hrest⟩
        refine ⟨_, ⟨by omega, hhigh⟩, _, ⟨by omega, hlow⟩, data, hrest, ?_, rfl⟩
        rw [Nat.div_add_mod', UInt8.ofNat_toNat]

/-- What is read are the texts of an even number of digits. -/
theorem decode?_isSome_iff :
    (decode? text).isSome ↔ text.length % 2 = 0 ∧ ∀ c ∈ text, isDigit c := by
  fun_induction decode? text with
  | case1 => simp
  | case2 c => simp
  | case3 high low rest ih =>
    have heven : (rest.length + 1 + 1) % 2 = 0 ↔ rest.length % 2 = 0 := by omega
    simp only [List.length_cons, heven, List.forall_mem_cons, isDigit_iff]
    cases digitValue? high with
    | none => simp
    | some h =>
      cases digitValue? low with
      | none => simp
      | some l =>
        simp only [isDigit_iff] at ih
        cases hrest : decode? rest <;> simp [hrest, ← ih]

end SyncedConfig.Hex
