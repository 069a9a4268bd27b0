import SyncedConfig.Proofs.Spelling.Grammar

/-!
# Documents are printed in the grammar

In any layout, texts, lists and objects are printed in one of the ways in which they may be
written, with no more escapes than needed.
-/
namespace SyncedConfig.Json

open Reader (Blank blank_nil)

theorem isCode_control {c : Char} (h : c.toNat < 0x20) :
    IsCode c.toNat (Utf8.encode ['\\', 'u', '0', '0', Hex.digitChar (c.toNat / 16),
      Hex.digitChar (c.toNat % 16)]) := by
  have hh : c.toNat / 16 < 16 := by omega
  have hl : c.toNat % 16 < 16 := by omega
  have hcode : ((0 * 16 + 0) * 16 + c.toNat / 16) * 16 + c.toNat % 16 = c.toNat := by omega
  have hzero : IsHexDigit 0 0x30 := ⟨by decide, .inl rfl⟩
  have hcode' := IsCode.mk hzero hzero ⟨hh, .inl rfl⟩ ⟨hl, .inl rfl⟩
  rw [hcode] at hcode'
  have hdigit : ∀ n < 16,
      String.utf8EncodeChar (Hex.digitChar n) = [Ascii.octet (Hex.digitChar n)] := by decide
  simp only [Utf8.encode_cons, hdigit _ hh, hdigit _ hl]
  exact hcode'

theorem spellsChar_escapeChar (c : Char) : SpellsChar c (Utf8.encode (escapeChar c)) := by
  have hshort {letter c : Char} (h : (letter, c) ∈ shortEscapes) :
      SpellsChar c (Utf8.encode ['\\', letter]) := by
    have hascii : ∀ e ∈ shortEscapes, e.1.toNat < 0x80 := by decide
    rw [Utf8.encode_cons, Utf8.encode_cons, Utf8.utf8EncodeChar_ascii (hascii _ h)]
    exact .short h
  unfold escapeChar
  split
  case h_8 hquote hbackslash _ _ _ _ _ =>
    split
    next hcontrol => exact .code (isCode_control hcontrol)
    next hcontrol =>
      rw [Utf8.encode_cons, Utf8.encode_nil, List.append_nil]
      exact .plain (Nat.le_of_not_lt hcontrol) hquote hbackslash
  all_goals exact hshort (by decide)

theorem spellsText_quote (s : String) : SpellsText s (Utf8.encode (quote s)) := by
  have hpieces (text : List Char) : List.Forall₂ SpellsChar text
      (text.map fun c => Utf8.encode (escapeChar c)) :=
    List.forall₂_map_right_iff.2 (List.forall₂_same.2 fun c _ => spellsChar_escapeChar c)
  have hflatten (text : List Char) : Utf8.encode (text.flatMap escapeChar) =
      (text.map fun c => Utf8.encode (escapeChar c)).flatten := by
    induction text with
    | nil => rfl
    | cons c text ih => rw [List.flatMap_cons, Utf8.encode_append, ih, List.map_cons,
        List.flatten_cons]
  refine ⟨_, hpieces s.toList, ?_⟩
  rw [← hflatten, quote, Utf8.encode_append, Utf8.encode_cons]
  rfl

variable {layout : Layout} (hl : layout.IsBlank) (depth : Nat)
include hl

theorem isRow_itemsOctets (items : List Json) {close : Bytes} (h : Blank close)
    (isFirst : Bool) :
    IsRow isFirst (items.map (·.octets layout (depth + 1)))
      (itemsOctets layout depth isFirst items ++ close) := by
  induction items generalizing isFirst with
  | nil => exact .nil h
  | cons item items ih =>
    simp only [itemsOctets, List.append_assoc]
    exact .cons blank_nil (hl.lead depth) (ih false)

theorem isList_octets (items : List Json) :
    IsList (items.map (·.octets layout (depth + 1))) ((list items).octets layout depth) := by
  obtain ⟨close, hclose, hoctets⟩ := octets_list depth hl items
  refine ⟨_, isRow_itemsOctets hl depth items hclose true, ?_⟩
  rw [hoctets, List.append_assoc]

theorem isRow_membersOctets (members : List (String × Json)) {close : Bytes} (h : Blank close)
    (isFirst : Bool) :
    IsRow isFirst (members.map fun m => Utf8.encode (quote m.1) ++ valueOctets layout depth m.2)
      (membersOctets layout depth isFirst members ++ close) := by
  induction members generalizing isFirst with
  | nil => exact .nil h
  | cons m members ih =>
    obtain ⟨name, value⟩ := m
    have hassoc (rest : Bytes) :
        Utf8.encode (quote name) ++ (valueOctets layout depth value ++ rest) =
          Utf8.encode (quote name) ++ valueOctets layout depth value ++ rest :=
      (List.append_assoc ..).symm
    simp only [membersOctets, List.append_assoc]
    rw [hassoc]
    exact .cons blank_nil (hl.lead depth) (ih false)

theorem isObject_octets (members : List (String × Json)) :
    IsObject (members.map fun m => (m.1, m.2.octets layout (depth + 1)))
      ((object members).octets layout depth) := by
  obtain ⟨close, hclose, hoctets⟩ := octets_object depth hl members
  obtain ⟨gap, hgap, hcolon⟩ := hl.colon
  have hmember (m : String × Json) : IsMember (Utf8.encode (quote m.1))
      (m.2.octets layout (depth + 1)) (Utf8.encode (quote m.1) ++ valueOctets layout depth m.2) :=
    ⟨[], gap, blank_nil, hgap, by rw [valueOctets, hcolon]; rfl⟩
  refine ⟨_, _, ?_, isRow_membersOctets hl depth members hclose true, ?_⟩
  · refine List.forall₂_map_left_iff.2 (List.forall₂_map_right_iff.2 ?_)
    exact List.forall₂_same.2 fun m _ => ⟨_, spellsText_quote m.1, hmember m⟩
  · rw [hoctets, List.append_assoc]

/-- No document, doubles apart, starts like a blank or a closing bracket. -/
theorem opens_octets (j : Json) (hj : ∀ x, j ≠ float x) : Opens (j.octets layout depth) := by
  cases j with
  | null => exact ⟨_, _, rfl, by decide⟩
  | bool b => cases b <;> exact ⟨_, _, rfl, by decide⟩
  | integer n => exact opens_integer n
  | float x => exact absurd rfl (hj x)
  | text s => exact opens_of_head? (spellsText_quote s).head? (by decide)
  | list items => exact opens_of_head? (isList_octets hl depth items).head? (by decide)
  | object members => exact opens_of_head? (isObject_octets hl depth members).head? (by decide)

end SyncedConfig.Json
