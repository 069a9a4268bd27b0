import SyncedConfig.Proofs.Accepted.Basic
import SyncedConfig.Proofs.Spelling.Text
import SyncedConfig.Proofs.Text.Valid

/-!
# A text that is read is written so

Between quotes a reader takes plain octets and escapes. An escape stands for the octets of one
character, and a plain octet for itself, so that an octet inside a character can only be plain. So
where the octets make up a text, each character has been written in one of its ways.
-/
namespace SyncedConfig.Json

open Reader (IsPlain)

theorem isHexDigit_of_digitValue? {n : Nat} {b : UInt8}
    (h : Hex.digitValue? (Char.ofNat b.toNat) = some n) : IsHexDigit n b := by
  have hall : ∀ k < 256, ∀ n ∈ Hex.digitValue? (Char.ofNat k), n < 16 ∧
      (UInt8.ofNat k = Ascii.octet (Hex.digitChar n) ∨
        UInt8.ofNat k = Ascii.octet (Hex.digitChar n).toUpper) := by decide +kernel
  have hb := hall b.toNat b.toNat_lt n h
  rwa [UInt8.ofNat_toNat] at hb

theorem isCode_of_hexNumber? {n : Nat} {b₁ b₂ b₃ b₄ : UInt8}
    (h : Reader.hexNumber? [b₁, b₂, b₃, b₄] = some n) :
    IsCode n [Ascii.backslash, Ascii.octet 'u', b₁, b₂, b₃, b₄] := by
  simp only [Reader.hexNumber?, List.foldlM_cons, List.foldlM_nil, Option.bind_eq_bind,
    Option.bind_eq_some_iff, Option.pure_def, Option.some.injEq] at h
  obtain ⟨_, ⟨n₁, h₁, rfl⟩, _, ⟨n₂, h₂, rfl⟩, _, ⟨n₃, h₃, rfl⟩, _, ⟨n₄, h₄, rfl⟩, rfl⟩ := h
  rw [Nat.zero_mul, Nat.zero_add]
  exact .mk (isHexDigit_of_digitValue? h₁) (isHexDigit_of_digitValue? h₂)
    (isHexDigit_of_digitValue? h₃) (isHexDigit_of_digitValue? h₄)

theorem exists_of_unescape? {b octet : UInt8} (h : Reader.unescape? b = some octet) :
    ∃ letter c, (letter, c) ∈ shortEscapes ∧ b = Ascii.octet letter ∧
      String.utf8EncodeChar c = [octet] := by
  have hall : ∀ k < 256, ∀ octet ∈ Reader.unescape? (UInt8.ofNat k), ∃ e ∈ shortEscapes,
      UInt8.ofNat k = Ascii.octet e.1 ∧ String.utf8EncodeChar e.2 = [octet] := by decide +kernel
  have hb := hall b.toNat b.toNat_lt
  rw [UInt8.ofNat_toNat] at hb
  obtain ⟨⟨letter, c⟩, hmem, hletter, hoctet⟩ := hb octet h
  exact ⟨letter, c, hmem, hletter, hoctet⟩

namespace Reader

variable {out input octets rest : Bytes} {result : Bytes × Bytes}

/-- The four digits of an escape are taken before their number is looked at. -/
theorem exists_digits_of_textOctets {high? : Option Nat}
    (h : textOctets out (.digits high? []) input = .ok result) :
    ∃ n b₁ b₂ b₃ b₄ left, input = b₁ :: b₂ :: b₃ :: b₄ :: left ∧
      IsCode n [Ascii.backslash, Ascii.octet 'u', b₁, b₂, b₃, b₄] ∧
      match high? with
      | none => isLowSurrogate n = false ∧
          if isHighSurrogate n then textOctets out (.afterHigh n) left = .ok result
          else textOctets (pushChar (Char.ofNat n) out) .plain left = .ok result
      | some high => isLowSurrogate n = true ∧
          textOctets (pushChar (joinSurrogates high n) out) .plain left = .ok result := by
  obtain _ | ⟨b₁, _ | ⟨b₂, _ | ⟨b₃, _ | ⟨b₄, left⟩⟩⟩⟩ := input
  · cases h
  · cases h
  · cases h
  · cases h
  have hlast : textOctets out (.digits high? [b₁, b₂, b₃]) (b₄ :: left) = .ok result := h
  unfold textOctets at hlast
  simp only [List.length_cons, List.length_nil, Nat.zero_add, Nat.reduceAdd, Nat.lt_irrefl,
    ↓reduceIte, List.cons_append, List.nil_append] at hlast
  split at hlast
  next => cases hlast
  next n hnumber =>
    split at hlast
    next => cases hlast
    next hlow =>
      refine ⟨n, b₁, b₂, b₃, b₄, left, rfl, isCode_of_hexNumber? hnumber, by simpa using hlow, ?_⟩
      split at hlast
      next hhigh => rwa [if_pos hhigh]
      next hhigh => rwa [if_neg hhigh]
  next n high hnumber =>
    split at hlast
    next hlow => exact ⟨n, b₁, b₂, b₃, b₄, left, rfl, isCode_of_hexNumber? hnumber, hlow, hlast⟩
    next => cases hlast

theorem exists_of_textOctets_afterHigh {high : Nat}
    (h : textOctets out (.afterHigh high) input = .ok result) :
    ∃ low code left, IsCode low code ∧ isLowSurrogate low = true ∧ input = code ++ left ∧
      textOctets (pushChar (joinSurrogates high low) out) .plain left = .ok result := by
  obtain _ | ⟨b, _ | ⟨b', input⟩⟩ := input
  · cases h
  · rw [textOctets] at h
    split at h <;> cases h
  rw [textOctets] at h
  split at h
  next hb =>
    rw [textOctets] at h
    split at h
    next hb' =>
      obtain ⟨low, b₁, b₂, b₃, b₄, left, rfl, hcode, hlow, h⟩ := exists_digits_of_textOctets h
      exact ⟨low, _, left, hcode, hlow, by rw [hb, hb']; rfl, h⟩
    next => cases h
  next => cases h

theorem toNat_ofNat {n : Nat} (h : n.isValidChar) : (Char.ofNat n).toNat = n :=
  Utf8.toNat_val_ofNat h

theorem lt_of_isCode {n : Nat} {code : Bytes} (h : IsCode n code) : n < 0x10000 := by
  obtain ⟨⟨h₁, -⟩, ⟨h₂, -⟩, ⟨h₃, -⟩, ⟨h₄, -⟩⟩ := h
  omega

theorem toNat_ofNat_of_not_surrogate {n : Nat} (hn : n < 0x10000)
    (hlow : isLowSurrogate n = false) (hhigh : ¬ isHighSurrogate n = true) :
    (Char.ofNat n).toNat = n := by
  simp only [isLowSurrogate, isHighSurrogate, Bool.and_eq_false_iff, Bool.and_eq_true,
    decide_eq_false_iff_not, decide_eq_true_eq] at hlow hhigh
  by_cases hless : n < 0xd800
  · exact toNat_ofNat (.inl hless)
  · exact toNat_ofNat (.inr ⟨by omega, by omega⟩)

/-- Two halves make up a character above U+FFFF, of which they are the halves. -/
theorem halves_joinSurrogates {high low : Nat} (hhigh : isHighSurrogate high = true)
    (hlow : isLowSurrogate low = true) :
    0x10000 ≤ (joinSurrogates high low).toNat ∧
      0xd800 + ((joinSurrogates high low).toNat - 0x10000) / 0x400 = high ∧
      0xdc00 + ((joinSurrogates high low).toNat - 0x10000) % 0x400 = low := by
  simp only [isLowSurrogate, isHighSurrogate, Bool.and_eq_true, decide_eq_true_eq] at hlow hhigh
  rw [joinSurrogates]
  generalize hn : (high - 0xd800) * 0x400 + (low - 0xdc00) + 0x10000 = n
  rw [toNat_ofNat (.inr ⟨by omega, by omega⟩)]
  omega

theorem exists_of_textOctets_escape (h : textOctets out .escape input = .ok result) :
    ∃ c escape left, SpellsChar c (Ascii.backslash :: escape) ∧ input = escape ++ left ∧
      textOctets (pushChar c out) .plain left = .ok result := by
  cases input with
  | nil => cases h
  | cons b input =>
  rw [textOctets] at h
  split at h
  next hb =>
    obtain ⟨n, b₁, b₂, b₃, b₄, left, rfl, hcode, hnotLow, h⟩ := exists_digits_of_textOctets h
    split at h
    next hhigh =>
      obtain ⟨low, code, left, hlowCode, hlow, rfl, hleft⟩ := exists_of_textOctets_afterHigh h
      obtain ⟨hlarge, hfirst, hsecond⟩ := halves_joinSurrogates hhigh hlow
      refine ⟨_, Ascii.octet 'u' :: b₁ :: b₂ :: b₃ :: b₄ :: code, left,
        .pair hlarge (hfirst.symm ▸ hcode) (hsecond.symm ▸ hlowCode), ?_, hleft⟩
      rw [hb]
      rfl
    next hnotHigh =>
      have hn := toNat_ofNat_of_not_surrogate (lt_of_isCode hcode) hnotLow hnotHigh
      exact ⟨Char.ofNat n, _, left, .code (hn.symm ▸ hcode), by rw [hb]; rfl, h⟩
  next =>
    split at h
    next octet hescape =>
      obtain ⟨letter, c, hmem, rfl, hoctet⟩ := exists_of_unescape? hescape
      refine ⟨c, _, input, .short hmem, rfl, ?_⟩
      rw [pushChar, hoctet]
      exact h
    next => cases h

/-- What is taken at once between quotes, and the octets that it stands for. -/
inductive Keeps : Bytes → Bytes → Prop
  | plain {b : UInt8} (h : IsPlain b) : Keeps [b] [b]
  | char {c : Char} {piece : Bytes} (h : SpellsChar c piece) :
      Keeps piece (String.utf8EncodeChar c)

/-- All that is taken up to the closing quote is plain octets and escapes. -/
theorem exists_of_textOctets (h : textOctets out .plain input = .ok (octets, rest)) :
    ∃ pieces kept, List.Forall₂ Keeps pieces kept ∧
      input = pieces.flatten ++ Ascii.quote :: rest ∧ octets = out.reverse ++ kept.flatten := by
  induction hlength : input.length using Nat.strongRecOn generalizing out input with
  | _ n ih =>
    cases input with
    | nil => cases h
    | cons b input =>
    rw [textOctets] at h
    split at h
    next hquote =>
      cases h
      exact ⟨[], [], .nil, by rw [hquote]; rfl, by simp⟩
    next hquote =>
      split at h
      next hbackslash =>
        obtain ⟨c, escape, left, hescape, rfl, hleft⟩ := exists_of_textOctets_escape h
        have hless : left.length < n := by
          rw [← hlength, List.length_cons, List.length_append]
          omega
        obtain ⟨pieces, kept, hkept, rfl, rfl⟩ := ih left.length hless hleft rfl
        refine ⟨_ :: pieces, _ :: kept, .cons (.char hescape) hkept, ?_, ?_⟩
        · rw [hbackslash]
          simp
        · simp [pushChar]
      next hbackslash =>
        split at h
        next => cases h
        next hcontrol =>
          have hless : input.length < n := by
            rw [← hlength, List.length_cons]
            omega
          have hplain : IsPlain b := ⟨hquote, hbackslash, by simpa using hcontrol⟩
          obtain ⟨pieces, kept, hkept, rfl, rfl⟩ := ih input.length hless h rfl
          exact ⟨[b] :: pieces, [b] :: kept, .cons (.plain hplain) hkept, rfl, by simp⟩

def Continues (b : UInt8) : Prop := 0x80 ≤ b.toNat ∧ b.toNat < 0xc0

theorem utf8EncodeChar_eq_cons (c : Char) :
    ∃ b tail, String.utf8EncodeChar c = b :: tail ∧ ¬ Continues b ∧ ∀ b ∈ tail, Continues b := by
  have hc := Utf8.codePoint_cases c
  have hv : c.val.toNat = c.toNat := rfl
  have leads (n : Nat) (hn : n < 0x100) (h : n < 0x80 ∨ 0xc0 ≤ n) :
      ¬ Continues (UInt8.ofNat n) := by
    rw [Continues, Utf8.toNat_ofNat hn]
    omega
  have continues (n : Nat) : Continues (UInt8.ofNat (n % 0x40 + 0x80)) := by
    rw [Continues, Utf8.toNat_ofNat (by omega)]
    omega
  simp only [String.utf8EncodeChar, hv]
  split
  next => exact ⟨_, _, rfl, leads _ (by omega) (by omega), List.forall_mem_nil _⟩
  split
  next =>
    exact ⟨_, _, rfl, leads _ (by omega) (by omega), List.forall_mem_singleton.2 (continues _)⟩
  split
  next =>
    exact ⟨_, _, rfl, leads _ (by omega) (by omega),
      List.forall_mem_cons.2 ⟨continues _, List.forall_mem_singleton.2 (continues _)⟩⟩
  next =>
    exact ⟨_, _, rfl, leads _ (by omega) (by omega), List.forall_mem_cons.2 ⟨continues _,
      List.forall_mem_cons.2 ⟨continues _, List.forall_mem_singleton.2 (continues _)⟩⟩⟩

/-- Octets that do not start a character are none of an escape. -/
theorem exists_behind_continuation {pieces kept : List Bytes} (h : List.Forall₂ Keeps pieces kept)
    {tail more : Bytes} (htail : ∀ b ∈ tail, Continues b) (hkept : kept.flatten = tail ++ more) :
    ∃ pieces' kept', List.Forall₂ Keeps pieces' kept' ∧ kept'.flatten = more ∧
      pieces.flatten = tail ++ pieces'.flatten := by
  induction tail generalizing pieces kept with
  | nil => exact ⟨pieces, kept, h, hkept, rfl⟩
  | cons b tail ih =>
    obtain ⟨hb, hbehind⟩ := List.forall_mem_cons.1 htail
    cases h with
    | nil => cases hkept
    | cons hpiece h =>
      cases hpiece with
      | plain =>
        obtain ⟨rfl, hmore⟩ := List.cons_eq_cons.1 hkept
        obtain ⟨pieces', kept', h', hmore', hflatten⟩ := ih h hbehind hmore
        refine ⟨pieces', kept', h', hmore', ?_⟩
        rw [List.flatten_cons, hflatten]
        rfl
      | @char c =>
        obtain ⟨lead, behind, hc, hlead, -⟩ := utf8EncodeChar_eq_cons c
        rw [List.flatten_cons, hc] at hkept
        obtain ⟨rfl, -⟩ := List.cons_eq_cons.1 hkept
        exact absurd hb hlead

theorem eq_of_encode_cons {c d : Char} {text : List Char} {more : Bytes}
    (h : String.utf8EncodeChar d ++ more = Utf8.encode (c :: text)) :
    d = c ∧ more = Utf8.encode text := by
  have hdecode : Utf8.decode (Utf8.encode (c :: text)) = ⟨c :: text, none⟩ :=
    Utf8.decode_encode (c :: text)
  rw [← h, Utf8.decode, Utf8.decodeFrom_utf8EncodeChar, Utf8.Decoded.cons] at hdecode
  obtain ⟨rfl, -⟩ := List.cons_eq_cons.1 (congrArg Utf8.Decoded.chars hdecode)
  exact ⟨rfl, List.append_cancel_left h⟩

/-- A character whose first octet is plain needs no escape. -/
theorem spellsChar_of_isPlain {c : Char} {b : UInt8} {tail : Bytes}
    (hc : String.utf8EncodeChar c = b :: tail) (hb : IsPlain b) :
    SpellsChar c (String.utf8EncodeChar c) := by
  obtain ⟨hquote, hbackslash, hcontrol⟩ := hb
  refine .plain ?_ ?_ ?_
  · by_contra hless
    have hlt : c.toNat < 0x20 := Nat.lt_of_not_le hless
    rw [Utf8.utf8EncodeChar_ascii (by omega)] at hc
    obtain ⟨rfl, -⟩ := List.cons_eq_cons.1 hc
    have hcode := Utf8.toNat_ofNat (show c.toNat < 0x100 by omega)
    simp [Ascii.isControl, UInt8.le_iff_toNat_le, hcode] at hcontrol
    omega
  · rintro rfl
    exact hquote (List.cons_eq_cons.1 hc).1.symm
  · rintro rfl
    exact hbackslash (List.cons_eq_cons.1 hc).1.symm

/-- Pieces that stand for the octets of a text write its characters one by one. -/
theorem spells_of_keeps {text : List Char} {pieces kept : List Bytes}
    (h : List.Forall₂ Keeps pieces kept) (hkept : kept.flatten = Utf8.encode text) :
    ∃ pieces', List.Forall₂ SpellsChar text pieces' ∧ pieces'.flatten = pieces.flatten := by
  induction text generalizing pieces kept with
  | nil =>
    cases h with
    | nil => exact ⟨[], .nil, rfl⟩
    | cons hpiece =>
      cases hpiece with
      | plain => cases hkept
      | char => simp [String.utf8EncodeChar_ne_nil] at hkept
  | cons c text ih =>
    cases h with
    | nil => simp [String.utf8EncodeChar_ne_nil] at hkept
    | @cons piece _ pieces kept hpiece h =>
      cases hpiece with
      | @plain b hb =>
        obtain ⟨lead, tail, hc, -, htail⟩ := utf8EncodeChar_eq_cons c
        rw [Utf8.encode_cons, hc] at hkept
        obtain ⟨rfl, hbehind⟩ := List.cons_eq_cons.1 hkept
        obtain ⟨pieces', kept', h', hmore, hflatten⟩ :=
          exists_behind_continuation h htail hbehind
        obtain ⟨spelled, hspelled, heq⟩ := ih h' hmore
        refine ⟨_ :: spelled, .cons (spellsChar_of_isPlain hc hb) hspelled, ?_⟩
        rw [List.flatten_cons, List.flatten_cons, heq, hflatten, hc]
        rfl
      | @char d _ hspells =>
        obtain ⟨rfl, hmore⟩ := eq_of_encode_cons hkept
        obtain ⟨spelled, hspelled, heq⟩ := ih h hmore
        exact ⟨_ :: spelled, .cons hspells hspelled, by rw [List.flatten_cons, heq]; rfl⟩

/-- What is taken for a text writes it. -/
theorem spellsText_of_textToken {s : String}
    (h : textToken (Ascii.quote :: input) = .ok (s, rest)) :
    ∃ octets, SpellsText s octets ∧ Ascii.quote :: input = octets ++ rest := by
  have hbody : textBody input = .ok (s, rest) := h
  rw [textBody] at hbody
  split at hbody
  next => cases hbody
  next octets left hread =>
    obtain ⟨pieces, kept, hkeeps, rfl, rfl⟩ := exists_of_textOctets hread
    dsimp only at hbody
    split at hbody
    next hdefect =>
      cases hbody
      have hkept := Utf8.encode_decodeFrom _ hdefect
      obtain ⟨spelled, hspelled, heq⟩ := spells_of_keeps hkeeps hkept.symm
      refine ⟨_, ⟨spelled, ?_, rfl⟩, ?_⟩
      · rw [String.toList_ofList]
        exact hspelled
      · rw [heq]
        simp
    next => cases hbody

theorem takesOnly_text : TakesOnly text SpellsText := by
  refine takesOnly_of_start fun b left s rest _ h => ?_
  split at h
  next hb =>
    subst hb
    obtain ⟨octets, hspells, heq⟩ := spellsText_of_textToken h
    exact ⟨octets, heq, hspells⟩
  next => exact absurd h (mistyped_ne_ok _ _ _ _ _)

end Reader
end SyncedConfig.Json
