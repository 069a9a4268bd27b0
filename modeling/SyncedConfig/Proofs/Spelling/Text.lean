import SyncedConfig.Json.Reader.Text
import SyncedConfig.Proofs.Reading.Utf8
import SyncedConfig.Proofs.Spelling.Grammar

/-!
# A text is read however it is written

Each character is read from all its ways to be written, and the reader keeps the same octets for
all of them. Two halves of a pair make up the character that they were made of.
-/
namespace SyncedConfig.Json.Reader

def IsPlain (b : UInt8) : Prop := b ≠ Ascii.quote ∧ b ≠ Ascii.backslash ∧ Ascii.isControl b = false

theorem textOctets_plain {octets : Bytes} (h : ∀ b ∈ octets, IsPlain b) (out rest : Bytes) :
    textOctets out .plain (octets ++ rest) = textOctets (octets.reverse ++ out) .plain rest := by
  induction octets generalizing out with
  | nil => rfl
  | cons b octets ih =>
    obtain ⟨⟨hquote, hbackslash, hcontrol⟩, htail⟩ := List.forall_mem_cons.1 h
    rw [List.cons_append, textOctets, if_neg hquote, if_neg hbackslash, hcontrol,
      if_neg Bool.false_ne_true, ih htail, List.reverse_cons, List.append_assoc,
      List.singleton_append]

theorem isPlain_of_le {b : UInt8} (h : 0x20 ≤ b.toNat) (hquote : b.toNat ≠ 0x22)
    (hbackslash : b.toNat ≠ 0x5c) : IsPlain b := by
  refine ⟨fun hb => hquote (hb ▸ rfl), fun hb => hbackslash (hb ▸ rfl), decide_eq_false ?_⟩
  exact fun hlt => absurd (UInt8.lt_iff_toNat_lt.1 hlt) (Nat.not_lt.2 h)

theorem isPlain_of_mem {c : Char} (h : 0x20 ≤ c.toNat) (hquote : c ≠ '"') (hbackslash : c ≠ '\\')
    {b : UInt8} (hb : b ∈ String.utf8EncodeChar c) : IsPlain b := by
  by_cases hascii : c.toNat < 0x80
  · rw [Utf8.utf8EncodeChar_ascii hascii, List.mem_singleton] at hb
    have hn : b.toNat = c.toNat := hb ▸ Utf8.toNat_ofNat (by omega)
    refine isPlain_of_le (hn ▸ h) ?_ ?_ <;> rw [hn]
    · exact fun heq => hquote (Char.toNat_inj.1 heq)
    · exact fun heq => hbackslash (Char.toNat_inj.1 heq)
  · have hle := Utf8.le_of_mem_utf8EncodeChar (Nat.le_of_not_lt hascii) hb
    exact isPlain_of_le (by omega) (by omega) (by omega)

theorem digitValue?_octet {n : Nat} {b : UInt8} (h : IsHexDigit n b) :
    Hex.digitValue? (Char.ofNat b.toNat) = some n := by
  have hlower : ∀ n < 16,
      Hex.digitValue? (Char.ofNat (Ascii.octet (Hex.digitChar n)).toNat) = some n := by decide
  have hupper : ∀ n < 16,
      Hex.digitValue? (Char.ofNat (Ascii.octet (Hex.digitChar n).toUpper).toNat) = some n := by
    decide
  obtain ⟨hn, rfl | rfl⟩ := h
  · exact hlower n hn
  · exact hupper n hn

theorem hexNumber?_code {n : Nat} {octets : Bytes} (h : IsCode n octets) :
    ∃ b₁ b₂ b₃ b₄, octets = [Ascii.backslash, Ascii.octet 'u', b₁, b₂, b₃, b₄] ∧
      hexNumber? [b₁, b₂, b₃, b₄] = some n := by
  obtain ⟨h₁, h₂, h₃, h₄⟩ := h
  refine ⟨_, _, _, _, rfl, ?_⟩
  simp only [hexNumber?, List.foldlM_cons, List.foldlM_nil, digitValue?_octet h₁,
    digitValue?_octet h₂, digitValue?_octet h₃, digitValue?_octet h₄]
  simp

theorem unescape?_short {letter c : Char} (h : (letter, c) ∈ shortEscapes) :
    Ascii.octet letter ≠ Ascii.octet 'u' ∧ unescape? (Ascii.octet letter) = some (Ascii.octet c) ∧
      String.utf8EncodeChar c = [Ascii.octet c] := by
  have hall : ∀ e ∈ shortEscapes, Ascii.octet e.1 ≠ Ascii.octet 'u' ∧
      unescape? (Ascii.octet e.1) = some (Ascii.octet e.2) ∧
        String.utf8EncodeChar e.2 = [Ascii.octet e.2] := by decide
  exact hall _ h

theorem textOctets_short {letter c : Char} (h : (letter, c) ∈ shortEscapes) (out rest : Bytes) :
    textOctets out .plain (Ascii.backslash :: Ascii.octet letter :: rest) =
      textOctets (pushChar c out) .plain rest := by
  obtain ⟨hcode, hletter, hoctets⟩ := unescape?_short h
  change textOctets out .escape (Ascii.octet letter :: rest) = _
  simp only [textOctets, hcode, ↓reduceIte, hletter, pushChar, hoctets, List.reverse_singleton,
    List.singleton_append]

theorem textOctets_code {c : Char} {octets : Bytes} (h : IsCode c.toNat octets)
    (out rest : Bytes) :
    textOctets out .plain (octets ++ rest) = textOctets (pushChar c out) .plain rest := by
  obtain ⟨b₁, b₂, b₃, b₄, rfl, hnumber⟩ := hexNumber?_code h
  have hlow : isLowSurrogate c.toNat = false := by
    have := Utf8.codePoint_cases c
    simp [isLowSurrogate]
    omega
  have hhigh : isHighSurrogate c.toNat = false := by
    have := Utf8.codePoint_cases c
    simp [isHighSurrogate]
    omega
  change textOctets out (.digits none [b₁, b₂, b₃]) (b₄ :: rest) = _
  simp [textOctets, hnumber, hlow, hhigh]

theorem joinSurrogates_halves {c : Char} (h : 0x10000 ≤ c.toNat) :
    joinSurrogates (0xd800 + (c.toNat - 0x10000) / 0x400)
      (0xdc00 + (c.toNat - 0x10000) % 0x400) = c := by
  have hcode : (0xd800 + (c.toNat - 0x10000) / 0x400 - 0xd800) * 0x400 +
      (0xdc00 + (c.toNat - 0x10000) % 0x400 - 0xdc00) + 0x10000 = c.toNat := by omega
  rw [joinSurrogates, hcode, Char.ofNat_toNat]

theorem textOctets_pair {c : Char} (h : 0x10000 ≤ c.toNat) {high low : Bytes}
    (hhigh : IsCode (0xd800 + (c.toNat - 0x10000) / 0x400) high)
    (hlow : IsCode (0xdc00 + (c.toNat - 0x10000) % 0x400) low) (out rest : Bytes) :
    textOctets out .plain (high ++ low ++ rest) = textOctets (pushChar c out) .plain rest := by
  obtain ⟨a₁, a₂, a₃, a₄, rfl, hnumber⟩ := hexNumber?_code hhigh
  obtain ⟨b₁, b₂, b₃, b₄, rfl, hnumber'⟩ := hexNumber?_code hlow
  have hbound := Utf8.codePoint_cases c
  have hfirst : isHighSurrogate (0xd800 + (c.toNat - 0x10000) / 0x400) = true := by
    simp [isHighSurrogate]
    omega
  have hfirst' : isLowSurrogate (0xd800 + (c.toNat - 0x10000) / 0x400) = false := by
    simp [isLowSurrogate]
    omega
  have hsecond : isLowSurrogate (0xdc00 + (c.toNat - 0x10000) % 0x400) = true := by
    simp [isLowSurrogate]
    omega
  change textOctets out (.digits none [a₁, a₂, a₃]) (a₄ :: Ascii.backslash :: Ascii.octet 'u' ::
    b₁ :: b₂ :: b₃ :: b₄ :: rest) = _
  simp [textOctets, hnumber, hnumber', hfirst, hfirst', hsecond, joinSurrogates_halves h]

/-- However a character is written, its octets are kept. -/
theorem textOctets_spelled {c : Char} {octets : Bytes} (h : SpellsChar c octets)
    (out rest : Bytes) :
    textOctets out .plain (octets ++ rest) = textOctets (pushChar c out) .plain rest := by
  cases h with
  | plain hcontrol hquote hbackslash =>
    exact textOctets_plain (fun b hb => isPlain_of_mem hcontrol hquote hbackslash hb) out rest
  | short h => exact textOctets_short h out rest
  | code h => exact textOctets_code h out rest
  | pair h hhigh hlow => exact textOctets_pair h hhigh hlow out rest

theorem textOctets_flatten {text : List Char} {pieces : List Bytes}
    (h : List.Forall₂ SpellsChar text pieces) (out rest : Bytes) :
    textOctets out .plain (pieces.flatten ++ Ascii.quote :: rest) =
      .ok (out.reverse ++ Utf8.encode text, rest) := by
  induction h generalizing out with
  | nil => simp [textOctets]
  | cons hpiece _ ih =>
    rw [List.flatten_cons, List.append_assoc, textOctets_spelled hpiece, ih, Utf8.encode_cons,
      pushChar, List.reverse_append, List.reverse_reverse, List.append_assoc]

variable {s : String} {octets : Bytes}

/-- A text is read however it is written, whatever comes behind it. -/
theorem textToken_spelled (h : SpellsText s octets) (rest : Bytes) :
    textToken (octets ++ rest) = .ok (s, rest) := by
  obtain ⟨pieces, hpieces, rfl⟩ := h
  have hbody : textBody (pieces.flatten ++ Ascii.quote :: rest) = .ok (s, rest) := by
    rw [textBody, textOctets_flatten hpieces]
    simp [Utf8.decode_encode]
  rw [List.cons_append, List.append_assoc, textToken, bind_of_ok (advance_cons _ _)]
  exact hbody

end SyncedConfig.Json.Reader
