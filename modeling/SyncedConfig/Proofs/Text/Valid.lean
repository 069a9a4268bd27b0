import SyncedConfig.Proofs.Reading.Utf8

/-!
# What decodes is encoded text

The decoder takes an octet only where an encoded character has such a one, and so what it has
taken without a defect is the encoding of the characters that it returns. Hence some data is the
encoding of a text exactly if it decodes to it.
-/
namespace SyncedConfig.Utf8

section Characters

variable {a b c d n : Nat}

theorem toNat_val_ofNat (h : n.isValidChar) : (Char.ofNat n).val.toNat = n := by
  rw [Char.ofNat, dif_pos h]
  rfl

theorem utf8EncodeChar_one (h : n < 0x80) :
    String.utf8EncodeChar (Char.ofNat n) = [UInt8.ofNat n] := by
  have hcode := toNat_val_ofNat (n := n) (.inl (by omega))
  rw [String.utf8EncodeChar, hcode, if_pos (by omega)]

theorem utf8EncodeChar_two (ha : 0xc2 ≤ a) (ha' : a < 0xe0) (hb : 0x80 ≤ b) (hb' : b ≤ 0xbf) :
    String.utf8EncodeChar (Char.ofNat ((a - 0xc0) * 64 + (b - 0x80))) =
      [UInt8.ofNat a, UInt8.ofNat b] := by
  generalize hn : (a - 0xc0) * 64 + (b - 0x80) = n
  have hcode := toNat_val_ofNat (n := n) (.inl (by omega))
  have hfirst : n / 64 % 0x20 + 0xc0 = a := by omega
  have hsecond : n % 0x40 + 0x80 = b := by omega
  rw [String.utf8EncodeChar, hcode, if_neg (by omega), if_pos (by omega), hfirst, hsecond]

theorem utf8EncodeChar_three (ha : 0xe0 ≤ a) (ha' : a < 0xf0)
    (hb : (if a = 0xe0 then 0xa0 else 0x80) ≤ b) (hb' : b ≤ if a = 0xed then 0x9f else 0xbf)
    (hc : 0x80 ≤ c) (hc' : c ≤ 0xbf) :
    String.utf8EncodeChar (Char.ofNat (((a - 0xe0) * 64 + (b - 0x80)) * 64 + (c - 0x80))) =
      [UInt8.ofNat a, UInt8.ofNat b, UInt8.ofNat c] := by
  generalize hn : ((a - 0xe0) * 64 + (b - 0x80)) * 64 + (c - 0x80) = n
  obtain ⟨hlow, hhigh, hvalid, hfirst, hsecond, hthird⟩ :
      0x800 ≤ n ∧ n < 0x10000 ∧ (n < 0xd800 ∨ 0xdfff < n) ∧
        n / 4096 % 0x10 + 0xe0 = a ∧ n / 64 % 0x40 + 0x80 = b ∧ n % 0x40 + 0x80 = c := by
    split at hb <;> split at hb' <;> omega
  have hcode := toNat_val_ofNat (n := n) (hvalid.imp id fun h => ⟨h, by omega⟩)
  rw [String.utf8EncodeChar, hcode, if_neg (by omega), if_neg (by omega), if_pos (by omega),
    hfirst, hsecond, hthird]

theorem utf8EncodeChar_four (ha : 0xf0 ≤ a) (ha' : a < 0xf5)
    (hb : (if a = 0xf0 then 0x90 else 0x80) ≤ b) (hb' : b ≤ if a = 0xf4 then 0x8f else 0xbf)
    (hc : 0x80 ≤ c) (hc' : c ≤ 0xbf) (hd : 0x80 ≤ d) (hd' : d ≤ 0xbf) :
    String.utf8EncodeChar (Char.ofNat
        ((((a - 0xf0) * 64 + (b - 0x80)) * 64 + (c - 0x80)) * 64 + (d - 0x80))) =
      [UInt8.ofNat a, UInt8.ofNat b, UInt8.ofNat c, UInt8.ofNat d] := by
  generalize hn : (((a - 0xf0) * 64 + (b - 0x80)) * 64 + (c - 0x80)) * 64 + (d - 0x80) = n
  obtain ⟨hlow, hhigh, hfirst, hsecond, hthird, hfourth⟩ :
      0x10000 ≤ n ∧ n < 0x110000 ∧ n / 262144 % 0x08 + 0xf0 = a ∧ n / 4096 % 0x40 + 0x80 = b ∧
        n / 64 % 0x40 + 0x80 = c ∧ n % 0x40 + 0x80 = d := by
    split at hb <;> split at hb' <;> omega
  have hcode := toNat_val_ofNat (n := n) (.inr ⟨by omega, hhigh⟩)
  rw [String.utf8EncodeChar, hcode, if_neg (by omega), if_neg (by omega), if_neg (by omega),
    hfirst, hsecond, hthird, hfourth]

end Characters

/-- Where a character is not complete, its next octet lies in the range that is due. -/
theorem octet_of_defect_none {p : Pending} {data : Bytes}
    (h : (decodeFrom (some p) data).defect = none) :
    ∃ n rest, data = UInt8.ofNat n :: rest ∧ n < 0x100 ∧ p.low.toNat ≤ n ∧ n ≤ p.high.toNat := by
  cases data with
  | nil => cases h
  | cons b rest =>
    rw [decodeFrom] at h
    split at h
    next hrange =>
      simp only [Bool.and_eq_true, decide_eq_true_eq, UInt8.le_iff_toNat_le] at hrange
      exact ⟨b.toNat, rest, by rw [UInt8.ofNat_toNat], b.toNat_lt, hrange⟩
    next => cases h

/-- No character starts with one of the other octets. -/
theorem ofByte_invalid {n : Nat} (hn : n < 0x100) (h : 0x80 ≤ n ∧ n < 0xc2 ∨ 0xf5 ≤ n) :
    Lead.ofByte (UInt8.ofNat n) = .invalid := by
  have hn := toNat_ofNat hn
  simp only [Lead.ofByte, UInt8.lt_iff_toNat_lt, ← UInt8.toNat_inj, hn, UInt8.reduceToNat]
  rcases h with h | h
  · rw [if_neg (by omega), if_pos h.2]
  · simp only [show ¬ n < 128 by omega, show ¬ n < 194 by omega, show ¬ n < 224 by omega,
      show n ≠ 224 by omega, show n ≠ 237 by omega, show ¬ n < 240 by omega, show n ≠ 240 by omega,
      show ¬ n < 244 by omega, show n ≠ 244 by omega, if_false]

/-- Data without a defect starts with the octets of a character. -/
theorem starts_with_char {b : UInt8} {rest : Bytes}
    (h : (decodeFrom none (b :: rest)).defect = none) :
    ∃ c more, String.utf8EncodeChar c ++ more = b :: rest := by
  obtain ⟨a, ha, rfl⟩ : ∃ a < 0x100, UInt8.ofNat a = b := ⟨b.toNat, b.toNat_lt, UInt8.ofNat_toNat⟩
  by_cases hone : a < 0x80
  · exact ⟨_, rest, by rw [utf8EncodeChar_one hone]; rfl⟩
  by_cases hinvalid : a < 0xc2 ∨ 0xf5 ≤ a
  · rw [decodeFrom, ofByte_invalid ha (by omega)] at h
    cases h
  by_cases htwo : a < 0xe0
  · rw [decodeFrom, ofByte_two (by omega) htwo] at h
    obtain ⟨b, rest, rfl, hb, hlow, hhigh⟩ := octet_of_defect_none h
    exact ⟨_, rest, by rw [utf8EncodeChar_two (by omega) htwo hlow hhigh]; rfl⟩
  by_cases hthree : a < 0xf0
  · rw [decodeFrom, ofByte_three (by omega) hthree] at h
    simp only at h
    obtain ⟨b, rest, rfl, hb, hlow, hhigh⟩ := octet_of_defect_none h
    rw [decodeFrom_more rest 0 hb hlow hhigh] at h
    obtain ⟨c, rest, rfl, hc, hlow', hhigh'⟩ := octet_of_defect_none h
    simp only [apply_ite UInt8.toNat, UInt8.reduceToNat] at hlow hhigh
    exact ⟨_, rest, by rw [utf8EncodeChar_three (by omega) hthree hlow hhigh hlow' hhigh']; rfl⟩
  · rw [decodeFrom, ofByte_four (by omega) (by omega)] at h
    simp only at h
    obtain ⟨b, rest, rfl, hb, hlow, hhigh⟩ := octet_of_defect_none h
    rw [decodeFrom_more rest 1 hb hlow hhigh] at h
    obtain ⟨c, rest, rfl, hc, hlow', hhigh'⟩ := octet_of_defect_none h
    rw [decodeFrom_more rest 0 hc hlow' hhigh'] at h
    obtain ⟨d, rest, rfl, hd, hlow'', hhigh''⟩ := octet_of_defect_none h
    simp only [apply_ite UInt8.toNat, UInt8.reduceToNat] at hlow hhigh
    exact ⟨_, rest, by
      rw [utf8EncodeChar_four (by omega) (by omega) hlow hhigh hlow' hhigh' hlow'' hhigh'']; rfl⟩

/-- What decodes without a defect is the encoding of the characters that it decodes to. -/
theorem encode_decodeFrom (data : Bytes) (h : (decodeFrom none data).defect = none) :
    encode (decodeFrom none data).chars = data := by
  induction hlength : data.length using Nat.strongRecOn generalizing data with
  | _ n ih =>
    cases data with
    | nil => rfl
    | cons b rest =>
      obtain ⟨c, more, hsplit⟩ := starts_with_char h
      have hpos := c.utf8Size_pos
      rw [← hsplit, decodeFrom_utf8EncodeChar] at h ⊢
      have hless : more.length < n := by
        rw [← hlength, ← hsplit, List.length_append, String.length_utf8EncodeChar]
        omega
      rw [Decoded.cons, encode_cons, ih _ hless more h rfl]

/-- Some data decodes to a text if and only if it is the encoding of the text. -/
theorem toText_eq_ok_iff {data : Bytes} {s : String} : toText data = .ok s ↔ ofString s = data := by
  constructor
  · intro h
    cases hdefect : (decode data).defect with
    | some defect => simp [toText, hdefect] at h
    | none =>
      simp only [toText, hdefect, Except.ok.injEq] at h
      rw [← h, ofString, String.toList_ofList, decode, encode_decodeFrom data hdefect]
  · rintro rfl
    simp [toText, ofString, decode_encode]

end SyncedConfig.Utf8
