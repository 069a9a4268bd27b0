import SyncedConfig.Proofs.Spelling.Printed
import SyncedConfig.Proofs.Spelling.Records

/-!
# Schemas lose nothing

In any layout, a value is written in one of the ways in which it may be written, with all members of
a record in order. So what a schema writes it reads back, at every depth.
-/
namespace SyncedConfig

open Json (Layout)

variable {α σ τ : Type} {layout : Layout}

namespace Fields

/-- No two fields have the same name. -/
theorem count_names_le : {σ τ : Type} → (fields : Fields σ τ) → fields.WellFormed →
    (name : String) → fields.names.count name ≤ 1
  | _, _, .done, _, _ => by
    rw [names]
    exact Nat.zero_le 1
  | _, _, .field first _ _ rest, h, name => by
    rw [names]
    by_cases heq : first = name
    · subst heq
      have hrest : rest.names.count first = 0 := List.count_eq_zero.2 h.2.1
      exact Nat.le_of_eq (by rw [List.count_cons_self, hrest])
    · rw [List.count_cons_of_ne heq]
      exact rest.count_names_le h.2.2 name

theorem given_of_subset {names : List String} : {σ τ : Type} → (fields : Fields σ τ) →
    (values : σ) → fields.names ⊆ names → fields.Given values names
  | _, _, .done, _, _ => trivial
  | _, _, .field _ _ _ rest, (_, values), h =>
    ⟨.inl (h (List.mem_cons_self ..)),
      rest.given_of_subset values (List.subset_of_cons_subset h)⟩

/-- A record has its members if there is one for each field, in any order. -/
theorem named_of_perm {fields : Fields σ τ} (outline : Outline) (h : fields.WellFormed) (values : σ)
    {spells : String → Bytes → Prop} {members : List (String × Bytes)}
    (hnames : (members.map (·.1)).Perm fields.names)
    (hspells : ∀ m ∈ members, spells m.1 m.2) : fields.Named outline spells values members where
  known m hm _ := hspells m hm
  unknown m hm hnot := absurd (hnames.subset (List.mem_map_of_mem hm)) hnot
  once name _ := by
    rw [hnames.count_eq]
    exact fields.count_names_le h name
  given := fields.given_of_subset values hnames.symm.subset

theorem named_of_spells {fields : Fields σ τ} (outline : Outline) (h : fields.WellFormed)
    (values : σ) {octets : Json → Bytes}
    (hspells : ∀ m ∈ fields.write values, fields.Spells values m.1 (octets m.2)) :
    fields.Named outline (fields.Spells values) values
      ((fields.write values).map fun m => (m.1, octets m.2)) := by
  have hnames : ((fields.write values).map fun m => (m.1, octets m.2)).map (·.1) =
      fields.names := by
    rw [List.map_map]
    exact fields.write_names values
  exact named_of_perm outline h values (.of_eq hnames) (List.forall_mem_map.2 hspells)

end Fields

mutual

/-- In any layout, a value of a well-formed schema is written in one of its ways. -/
theorem Schema.spells_write (hl : layout.IsBlank) :
    {α : Type} → (s : Schema α) → s.WellFormed → (depth : Nat) →
    (a : α) → s.Spells a ((s.write a).octets layout depth)
  | _, .text, _, depth, s => by
    rw [Schema.Spells, Schema.write]
    exact Json.spellsText_quote s
  | _, .flag, _, depth, b => by
    rw [Schema.Spells, Schema.write]
    cases b <;> rfl
  | _, .word w, _, depth, n => by
    rw [Schema.Spells, Schema.write]
    rfl
  | _, .optional s, h, depth, none => by
    rw [Schema.Spells, Schema.write]
    rfl
  | _, .optional s, h, depth, some a => by
    rw [Schema.Spells, Schema.write]
    exact s.spells_write hl h.1 depth a
  | _, .sequence s, h, depth, as => by
    have hitems := Json.isList_octets hl depth (as.map s.write)
    rw [Schema.Spells, Schema.write]
    refine ⟨_, ?_, hitems⟩
    rw [List.map_map]
    exact List.forall₂_map_right_iff.2 (List.forall₂_same.2 fun a _ =>
      s.spells_write hl h (depth + 1) a)
  | _, .block _ s, h, depth, as => by
    have hitems := Json.isList_octets hl depth (as.toList.map s.write)
    rw [Schema.Spells, Schema.write]
    refine ⟨_, ?_, hitems⟩
    rw [List.map_map]
    exact List.forall₂_map_right_iff.2 (List.forall₂_same.2 fun a _ =>
      s.spells_write hl h (depth + 1) a)
  | _, .dictionary s, h, depth, m => by
    have hmembers := Json.isObject_octets hl depth (m.entries.map fun e => (e.1, s.write e.2))
    rw [Schema.Spells, Schema.write]
    refine ⟨_, _, .rfl, ?_, hmembers⟩
    rw [List.map_map]
    exact List.forall₂_map_right_iff.2 (List.forall₂_same.2 fun e _ =>
      ⟨rfl, s.spells_write hl h (depth + 1) e.2⟩)
  | _, .tag tags, _, depth, a => by
    rw [Schema.Spells, Schema.write]
    exact Json.spellsText_quote (tags.name a)
  | _, .union cases view make make_view, h, depth, a => by
    have hmember := Json.isObject_octets hl depth [cases.write (view a)]
    rw [Schema.Spells, Schema.write]
    exact ⟨view a, _, _, make_view a, cases.spells_write hl h (depth + 1) (view a), hmember⟩
  | _, .record outline fields view make? make_view, h, depth, a => by
    have hmembers := Json.isObject_octets hl depth (fields.write (view a))
    rw [Schema.Spells, Schema.write]
    exact ⟨view a, make_view a, .inr ⟨_, Fields.named_of_spells outline h (view a)
      (fields.spells_write hl h (depth + 1) (view a)), hmembers⟩⟩

theorem Fields.spells_write (hl : layout.IsBlank) :
    {σ τ : Type} → (fields : Fields σ τ) → fields.WellFormed →
    (depth : Nat) → (values : σ) → ∀ m ∈ fields.write values,
      fields.Spells values m.1 (m.2.octets layout depth)
  | _, _, .done, _, depth, _ => by
    rw [Fields.write]
    nofun
  | _, _, .field name s absent rest, h, depth, (a, values) => by
    have hbehind : ∀ m ∈ rest.write values,
        (Fields.field name s absent rest).Spells (a, values) m.1 (m.2.octets layout depth) := by
      intro m hm
      have hne : name ≠ m.1 := by
        rintro rfl
        exact h.2.1 (rest.write_names values ▸ List.mem_map_of_mem hm)
      rw [Fields.Spells, if_neg hne]
      exact rest.spells_write hl h.2.2 depth values m hm
    rw [Fields.write]
    refine List.forall_mem_cons.2 ⟨?_, hbehind⟩
    rw [Fields.Spells, if_pos rfl]
    exact s.spells_write hl h.1 depth a

theorem Cases.spells_write (hl : layout.IsBlank) :
    {σ : Type} → (cases : Cases σ) → cases.WellFormed → (depth : Nat) →
    (shape : σ) → cases.Spells shape (cases.write shape).1
      ((cases.write shape).2.octets layout depth)
  | _, .last tag s, h, depth, a => by
    rw [Cases.write, Cases.Spells]
    exact ⟨rfl, s.spells_write hl h depth a⟩
  | _, .more tag s rest, h, depth, .inl a => by
    rw [Cases.write, Cases.Spells]
    exact ⟨rfl, s.spells_write hl h.1 depth a⟩
  | _, .more tag s rest, h, depth, .inr shape => by
    rw [Cases.write, Cases.Spells]
    exact rest.spells_write hl h.2.2 depth shape

end

theorem Schema.encode_eq (s : Schema α) (a : α) :
    s.encode a = (s.write a).octets .compact 0 := by
  rw [encode, Json.compact, Utf8.ofString, String.toList_ofList]
  rfl

theorem Schema.encode_ne_nil {s : Schema α} (h : s.WellFormed) (a : α) : s.encode a ≠ [] := by
  have hspells := s.spells_write Layout.compact_isBlank h 0 a
  obtain ⟨⟨b, rest, hoctets, -⟩, -⟩ := s.accepts h a _ hspells
  rw [encode_eq, hoctets]
  exact List.cons_ne_nil b rest

/-- A document is decoded in whichever layout it was printed. -/
theorem Schema.decode_octets (hl : layout.IsBlank) {s : Schema α} (h : s.WellFormed) (a : α) :
    s.decode ((s.write a).octets layout 0) = .ok a := by
  have hspells := s.spells_write hl h 0 a
  rw [decode, (s.accepts h a _ hspells).2.decode]

/-- Decoding undoes encoding. -/
theorem Schema.decode_encode {s : Schema α} (h : s.WellFormed) (a : α) :
    s.decode (s.encode a) = .ok a := by
  rw [encode_eq, decode_octets Layout.compact_isBlank h]

theorem Schema.encode_injective {s : Schema α} (h : s.WellFormed) :
    Function.Injective s.encode := by
  intro a b hab
  have hb := s.decode_encode h b
  rw [← hab, s.decode_encode h a] at hb
  exact Except.ok.inj hb

end SyncedConfig
