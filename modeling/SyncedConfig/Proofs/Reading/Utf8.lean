import SyncedConfig.Bytes.Utf8

/-!
# Encoded text decodes to itself

The first octet of a character announces how many follow and in which range the second one
lies; each of them adds six bits to the code point. So the decoder gets from the octets of a
character back to the character, whatever comes behind.
-/
namespace SyncedConfig.Utf8

@[simp] theorem encode_nil : encode [] = [] := rfl

@[simp] theorem encode_cons (c : Char) (text : List Char) :
    encode (c :: text) = String.utf8EncodeChar c ++ encode text := rfl

@[simp] theorem encode_append (text more : List Char) :
    encode (text ++ more) = encode text ++ encode more := List.flatMap_append ..

theorem toNat_ofNat {n : Nat} (h : n < 0x100) : (UInt8.ofNat n).toNat = n := by
  simpa using h

theorem utf8EncodeChar_ascii {c : Char} (h : c.toNat < 0x80) :
    String.utf8EncodeChar c = [UInt8.ofNat c.toNat] := by
  have hv : c.val.toNat ≤ 0x7f := Nat.le_of_lt_succ h
  exact if_pos hv

/-- What holds of the first characters one by one holds of every ASCII character. -/
theorem of_ascii {p : Char → Prop} (hall : ∀ n < 0x80, p (Char.ofNat n)) {c : Char}
    (h : c.toNat < 0x80) : p c := by
  have hp := hall c.toNat h
  rwa [Char.ofNat_toNat] at hp

/-- Outside ASCII no octet of a character could be taken for one of an ASCII character. -/
theorem le_of_mem_utf8EncodeChar {c : Char} {b : UInt8} (h : 0x80 ≤ c.toNat)
    (hb : b ∈ String.utf8EncodeChar c) : 0x80 ≤ b.toNat := by
  have hv : c.val.toNat = c.toNat := rfl
  simp only [String.utf8EncodeChar, hv, show ¬ c.toNat ≤ 0x7f by omega, if_false] at hb
  have high (n : Nat) (h₁ : 0x80 ≤ n) (h₂ : n < 0x100) : 0x80 ≤ (UInt8.ofNat n).toNat := by
    rwa [toNat_ofNat h₂]
  split at hb
  · simp only [List.mem_cons, List.not_mem_nil, or_false] at hb
    rcases hb with rfl | rfl <;> exact high _ (by omega) (by omega)
  split at hb
  · simp only [List.mem_cons, List.not_mem_nil, or_false] at hb
    rcases hb with rfl | rfl | rfl <;> exact high _ (by omega) (by omega)
  · simp only [List.mem_cons, List.not_mem_nil, or_false] at hb
    rcases hb with rfl | rfl | rfl | rfl <;> exact high _ (by omega) (by omega)

section Lead

variable {n : Nat}

theorem ofByte_single (h : n < 0x80) :
    Lead.ofByte (UInt8.ofNat n) = .single (Char.ofNat n) := by
  have hn := toNat_ofNat (Nat.lt_trans h (by decide : 0x80 < 0x100))
  have hlt : UInt8.ofNat n < 0x80 := UInt8.lt_iff_toNat_lt.2 (hn.symm ▸ h)
  rw [Lead.ofByte, if_pos hlt, hn]

theorem ofByte_two (h₁ : 0xc2 ≤ n) (h₂ : n < 0xe0) :
    Lead.ofByte (UInt8.ofNat n) = .opens ⟨0, 0x80, 0xbf, n - 0xc0, 1⟩ := by
  have hn := toNat_ofNat (show n < 0x100 by omega)
  simp only [Lead.ofByte, UInt8.lt_iff_toNat_lt, hn, UInt8.reduceToNat]
  simp [show ¬ n < 128 by omega, show ¬ n < 194 by omega, h₂]

theorem ofByte_three (h₁ : 0xe0 ≤ n) (h₂ : n < 0xf0) :
    Lead.ofByte (UInt8.ofNat n) =
      .opens ⟨1, if n = 0xe0 then 0xa0 else 0x80, if n = 0xed then 0x9f else 0xbf, n - 0xe0,
        1⟩ := by
  have hn := toNat_ofNat (show n < 0x100 by omega)
  simp only [Lead.ofByte, UInt8.lt_iff_toNat_lt, ← UInt8.toNat_inj, hn, UInt8.reduceToNat]
  simp only [show ¬ n < 128 by omega, show ¬ n < 194 by omega, show ¬ n < 224 by omega, h₂,
    if_false, if_true]
  by_cases he0 : n = 0xe0
  · simp [he0]
  by_cases hed : n = 0xed <;> simp [he0, hed]

theorem ofByte_four (h₁ : 0xf0 ≤ n) (h₂ : n < 0xf5) :
    Lead.ofByte (UInt8.ofNat n) =
      .opens ⟨2, if n = 0xf0 then 0x90 else 0x80, if n = 0xf4 then 0x8f else 0xbf, n - 0xf0,
        1⟩ := by
  have hn := toNat_ofNat (show n < 0x100 by omega)
  simp only [Lead.ofByte, UInt8.lt_iff_toNat_lt, ← UInt8.toNat_inj, hn, UInt8.reduceToNat]
  simp only [show ¬ n < 128 by omega, show ¬ n < 194 by omega, show ¬ n < 224 by omega,
    show ¬ n < 240 by omega, show n ≠ 224 by omega, show n ≠ 237 by omega, if_false]
  by_cases hf0 : n = 0xf0
  · simp [hf0]
  by_cases hf4 : n = 0xf4
  · simp [hf4]
  · simp [hf0, hf4, show n < 244 by omega]

end Lead

section Continuation

variable {low high : UInt8} {n code seen : Nat}

theorem decodeFrom_last (rest : Bytes) (hn : n < 0x100) (h₁ : low.toNat ≤ n) (h₂ : n ≤ high.toNat) :
    decodeFrom (some ⟨0, low, high, code, seen⟩) (UInt8.ofNat n :: rest) =
      (decodeFrom none rest).cons (Char.ofNat (code * 64 + (n - 0x80))) := by
  have hn := toNat_ofNat hn
  simp [decodeFrom, UInt8.le_iff_toNat_le, hn, h₁, h₂]

theorem decodeFrom_more (rest : Bytes) (left : Nat) (hn : n < 0x100) (h₁ : low.toNat ≤ n)
    (h₂ : n ≤ high.toNat) :
    decodeFrom (some ⟨left + 1, low, high, code, seen⟩) (UInt8.ofNat n :: rest) =
      decodeFrom (some ⟨left, 0x80, 0xbf, code * 64 + (n - 0x80), seen + 1⟩) rest := by
  have hn := toNat_ofNat hn
  simp [decodeFrom, UInt8.le_iff_toNat_le, hn, h₁, h₂]

end Continuation

/-- A code point is below or above the surrogates. -/
theorem codePoint_cases (c : Char) : c.toNat < 0xd800 ∨ 0xdfff < c.toNat ∧ c.toNat < 0x110000 :=
  c.valid

theorem decodeFrom_utf8EncodeChar (c : Char) (rest : Bytes) :
    decodeFrom none (String.utf8EncodeChar c ++ rest) = (decodeFrom none rest).cons c := by
  have hc := codePoint_cases c
  have hv : c.val.toNat = c.toNat := rfl
  simp only [String.utf8EncodeChar, hv]
  split
  next h₁ =>
    rw [List.singleton_append, decodeFrom, ofByte_single (by omega)]
    simp only [Char.ofNat_toNat]
  split
  next h₁ h₂ =>
    have code : (c.toNat / 64 % 0x20 + 0xc0 - 0xc0) * 64 + (c.toNat % 0x40 + 0x80 - 0x80) =
        c.toNat := by omega
    rw [List.cons_append, List.singleton_append, decodeFrom, ofByte_two (by omega) (by omega)]
    simp only
    rw [decodeFrom_last rest (by omega) (by simp) (by simp; omega), code, Char.ofNat_toNat]
  split
  next h₁ h₂ h₃ =>
    have code : ((c.toNat / 4096 % 0x10 + 0xe0 - 0xe0) * 64 +
        (c.toNat / 64 % 0x40 + 0x80 - 0x80)) * 64 + (c.toNat % 0x40 + 0x80 - 0x80) = c.toNat := by
      omega
    rw [List.cons_append, List.cons_append, List.singleton_append, decodeFrom,
      ofByte_three (by omega) (by omega)]
    simp only
    rw [decodeFrom_more _ 0 (by omega) (by split <;> simp; omega) (by split <;> simp <;> omega),
      decodeFrom_last rest (by omega) (by simp) (by simp; omega), code, Char.ofNat_toNat]
  next h₁ h₂ h₃ =>
    have code : (((c.toNat / 262144 % 0x08 + 0xf0 - 0xf0) * 64 +
        (c.toNat / 4096 % 0x40 + 0x80 - 0x80)) * 64 + (c.toNat / 64 % 0x40 + 0x80 - 0x80)) * 64 +
          (c.toNat % 0x40 + 0x80 - 0x80) = c.toNat := by
      omega
    rw [List.cons_append, List.cons_append, List.cons_append, List.singleton_append, decodeFrom,
      ofByte_four (by omega) (by omega)]
    simp only
    rw [decodeFrom_more _ 1 (by omega) (by split <;> simp; omega) (by split <;> simp <;> omega),
      decodeFrom_more _ 0 (by omega) (by simp) (by simp; omega),
      decodeFrom_last rest (by omega) (by simp) (by simp; omega), code, Char.ofNat_toNat]

theorem decode_encode (text : List Char) : decode (encode text) = ⟨text, none⟩ := by
  rw [decode]
  induction text with
  | nil => rfl
  | cons c text ih => rw [encode_cons, decodeFrom_utf8EncodeChar, ih, Decoded.cons]

end SyncedConfig.Utf8
