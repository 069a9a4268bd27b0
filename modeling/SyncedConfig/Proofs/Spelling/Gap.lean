import SyncedConfig.Proofs.Spelling.Refused

/-!
# One value among others

Octets may be read as values of a schema but for a gap, in which the octets of one value stand.
The place of the gap decides what the value in it is made part of. If the octets in the gap are
read, so is the whole, with that value in its place; if they are refused, so is the whole.
-/
namespace SyncedConfig

open Json (IsList IsObject IsRow Opens)
open Json.Reader

variable {α γ σ τ : Type}

/-- A field has this name and schema, and its value is put among these values of the others. -/
inductive Fields.At (name : String) (s : Schema γ) :
    {σ τ : Type} → Fields σ τ → (γ → σ) → Prop
  | head {σ τ : Type} {absent : Option γ} {rest : Fields σ τ} (values : σ) :
      At name s (.field name s absent rest) fun c => (c, values)
  | tail {α σ τ : Type} {other : String} {s' : Schema α} {absent : Option α} {rest : Fields σ τ}
      {put : γ → σ} (a : α) (hne : other ≠ name) (inner : At name s rest put) :
      At name s (.field other s' absent rest) fun c => (a, put c)

/-- These octets stand among the items for the value of a field with this schema, and the value is
put among those of the others. -/
inductive Fields.InRow (s : Schema γ) (value : Bytes) :
    {σ τ : Type} → Fields σ τ → (γ → σ) → List Bytes → Prop
  | head {σ τ : Type} {name : String} {absent : Option γ} {rest : Fields σ τ} {values : σ}
      {items : List Bytes} (h : rest.ReadsInOrder values items) :
      InRow s value (.field name s absent rest) (fun c => (c, values)) (value :: items)
  | tail {α σ τ : Type} {name : String} {s' : Schema α} {absent : Option α} {rest : Fields σ τ}
      {put : γ → σ} {a : α} {item : Bytes} {items : List Bytes} (h : ReadsItem s'.read a item)
      (inner : InRow s value rest put items) :
      InRow s value (.field name s' absent rest) (fun c => (a, put c)) (item :: items)

inductive Cases.At (tag : String) (s : Schema γ) : {σ : Type} → Cases σ → (γ → σ) → Prop
  | last : At tag s (.last tag s) id
  | here {σ : Type} {rest : Cases σ} : At tag s (.more tag s rest) Sum.inl
  | more {α σ : Type} {other : String} {s' : Schema α} {rest : Cases σ} {wrap : γ → σ}
      (hne : other ≠ tag) (inner : At tag s rest wrap) :
      At tag s (.more other s' rest) fun c => .inr (wrap c)

namespace Fields

variable {name : String} {s : Schema γ} {fields : Fields σ τ} {put : γ → σ} {value : Bytes} {c : γ}

theorem At.wellFormed (h : At name s fields put) (hfields : fields.WellFormed) : s.WellFormed := by
  induction h with
  | head => exact hfields.1
  | tail _ _ _ ih => exact ih hfields.2.2

theorem At.mem_names (h : At name s fields put) : name ∈ fields.names := by
  induction h with
  | head =>
    rw [names]
    exact List.mem_cons_self ..
  | tail _ _ _ ih =>
    rw [names]
    exact List.mem_cons_of_mem _ ih

theorem At.readsAs (h : At name s fields put) (hvalue : ReadsItem s.read c value) :
    fields.ReadsAs (put c) name value := by
  induction h with
  | head =>
    rw [ReadsAs, if_pos rfl]
    exact hvalue
  | tail _ hne _ ih =>
    rw [ReadsAs, if_neg hne]
    exact ih

theorem At.refuses_fill (h : At name s fields put) (hvalue : Refuses s.read value)
    {seen : List String} (hseen : name ∉ seen) (c : γ) :
    RefusesMember (fields.fill name (fields.slots (put c) seen)) value := by
  intro behind hb
  induction h with
  | head =>
    rw [fill, if_pos rfl]
    simp only [slots, hseen, ↓reduceIte]
    exact refuses_colon hb (hvalue.bind _)
  | tail _ hne _ ih =>
    rw [fill, if_neg hne]
    exact ih.bind _

variable {items : List Bytes}

theorem InRow.wellFormed (h : InRow s value fields put items) (hfields : fields.WellFormed) :
    s.WellFormed := by
  induction h with
  | head => exact hfields.1
  | tail _ _ ih => exact ih hfields.2.2

theorem InRow.readsInOrder (h : InRow s value fields put items)
    (hvalue : ReadsItem s.read c value) : fields.ReadsInOrder (put c) items := by
  induction h with
  | head h => exact ⟨hvalue, h⟩
  | tail h _ ih => exact ⟨h, ih⟩

theorem InRow.fails_readRow (h : InRow s value fields put items) (hopens : Opens value)
    (hvalue : Refuses s.read value) (outline : Outline) (total i : Nat) {row rest : Bytes}
    (hrow : IsRow (decide (i = 0)) items row) (hrest : Ends rest) :
    Fails (fields.readRow outline total i) (row ++ rest) := by
  induction h generalizing i row with
  | head h =>
    cases hrow with
    | @cons _ before gap _ row _ hbefore hgap hrow =>
    have hnext := nextItem_opens hbefore hgap hopens (decide (i = 0)) (row ++ rest)
    simp only [List.append_assoc]
    unfold readRow
    refine fails_bind_of_ok hnext ?_
    simp only [↓reduceIte]
    exact (hvalue.apply (hrow.ends hrest)).bind _
  | tail h _ ih =>
    cases hrow with
    | @cons _ before gap _ row _ hbefore hgap hrow =>
    have hnext := nextItem_opens hbefore hgap h.1 (decide (i = 0)) (row ++ rest)
    have hbehind : Fails (Fields.readRow _ outline total (i + 1)) (row ++ rest) :=
      ih (i + 1) (by simpa using hrow)
    simp only [List.append_assoc]
    unfold readRow
    refine fails_bind_of_ok hnext ?_
    simp only [↓reduceIte]
    exact fails_bind_of_ok (h.2.apply (hrow.ends hrest)) (hbehind.bind _)

end Fields

namespace Cases

variable {tag : String} {s : Schema γ} {cases : Cases σ} {wrap : γ → σ} {value : Bytes} {c : γ}

theorem At.wellFormed (h : At tag s cases wrap) (hcases : cases.WellFormed) : s.WellFormed := by
  induction h with
  | last => exact hcases
  | here => exact hcases.1
  | more _ _ ih => exact ih hcases.2.2

theorem At.mem_tags (h : At tag s cases wrap) : tag ∈ cases.tags := by
  induction h with
  | last => exact List.mem_singleton_self tag
  | here => exact List.mem_cons_self ..
  | more _ _ ih => exact List.mem_cons_of_mem _ ih

theorem At.reads (h : At tag s cases wrap) (hvalue : Reads s.read value c) :
    Reads (cases.readPayload tag) value (wrap c) := by
  induction h with
  | last =>
    rw [readPayload]
    exact hvalue
  | here =>
    rw [readPayload, if_pos rfl]
    exact hvalue.map Sum.inl
  | more hne _ ih =>
    rw [readPayload, if_neg hne]
    exact ih.map Sum.inr

theorem At.refuses (h : At tag s cases wrap) (hvalue : Refuses s.read value) :
    Refuses (cases.readPayload tag) value := by
  induction h with
  | last =>
    rw [readPayload]
    exact hvalue
  | here =>
    rw [readPayload, if_pos rfl]
    exact hvalue.bind _
  | more hne _ ih =>
    rw [readPayload, if_neg hne]
    exact ih.bind _

end Cases

namespace Schema

/-- The octets are read as values of a schema but for a gap with a value of another schema in it,
and this is what the value in the gap is made part of. -/
inductive Gap {β : Type} (t : Schema β) (value : Bytes) :
    {α : Type} → Schema α → (β → α) → Bytes → Prop
  | here : Gap t value t id value
  /-- A null could stand in the gap as well. -/
  | optional : Gap t value (.optional t) some value
  | item {α : Type} {s : Schema α} {make : β → α} {as bs : List α} {before behind : List Bytes}
      {octets list : Bytes} (inner : Gap t value s make octets)
      (hbefore : List.Forall₂ (ReadsItem s.read) as before)
      (hbehind : List.Forall₂ (ReadsItem s.read) bs behind)
      (hlist : IsList (before ++ octets :: behind) list) :
      Gap t value (.sequence s) (fun b => as ++ make b :: bs) list
  | shape {α γ σ : Type} {cases : Cases σ} {view : α → σ} {wrap : σ → α}
      {wrap_view : ∀ a, wrap (view a) = a} {tag : String} {s : Schema γ} {put : γ → σ}
      {make : β → γ} {octets object : Bytes} (inner : Gap t value s make octets)
      (hat : cases.At tag s put) (hobject : IsObject [(tag, octets)] object) :
      Gap t value (.union cases view wrap wrap_view) (fun b => wrap (put (make b))) object
  /-- The other members are the other fields of a record, or no fields at all. -/
  | member {α γ σ τ : Type} {outline : Outline} {fields : Fields σ τ} {view : α → σ}
      {make? : σ → Option α} {make_view : ∀ a, make? (view a) = some a} {name : String}
      {s : Schema γ} {put : γ → σ} {make : β → γ} {record : β → α}
      {before behind : List (String × Bytes)} {octets object : Bytes}
      (inner : Gap t value s make octets) (hat : fields.At name s put)
      (hothers : ∀ b, fields.Named outline
        (fun other octets => other ≠ name → fields.ReadsAs (put (make b)) other octets)
        (put (make b)) (before ++ (name, octets) :: behind))
      (hobject : IsObject (before ++ (name, octets) :: behind) object)
      (hmake : ∀ b, make? (put (make b)) = some (record b)) :
      Gap t value (.record outline fields view make? make_view) record object
  | row {α γ σ τ : Type} {outline : Outline} {fields : Fields σ τ} {view : α → σ}
      {make? : σ → Option α} {make_view : ∀ a, make? (view a) = some a} {s : Schema γ}
      {put : γ → σ} {make : β → γ} {record : β → α} {items : List Bytes} {octets list : Bytes}
      (inner : Gap t value s make octets) (hrow : fields.InRow s octets put items)
      (hlist : IsList items list) (hmake : ∀ b, make? (put (make b)) = some (record b)) :
      Gap t value (.record outline fields view make? make_view) record list

variable {β : Type} {t : Schema β} {value octets : Bytes} {s : Schema α} {make : β → α} {b : β}

section member

variable {outline : Outline} {fields : Fields σ τ} {values : σ} {name : String}
  {before behind : List (String × Bytes)}
  (hothers : fields.Named outline (fun other x => other ≠ name → fields.ReadsAs values other x)
    values (before ++ (name, octets) :: behind))
include hothers

/-- No other member has the name of this one. -/
theorem not_mem_of_named (hname : name ∈ fields.names) :
    name ∉ before.map (·.1) ∧ name ∉ behind.map (·.1) := by
  have honce := hothers.once name hname
  rw [List.map_append, List.count_append, List.map_cons, List.count_cons_self] at honce
  exact ⟨List.count_eq_zero.1 (by omega), List.count_eq_zero.1 (by omega)⟩

theorem named_of_readsAs (hname : name ∈ fields.names) (h : fields.ReadsAs values name octets) :
    fields.Named outline (fields.ReadsAs values) values (before ++ (name, octets) :: behind) where
  known := by
    intro m hm hmem
    by_cases heq : m.1 = name
    · obtain ⟨hbefore, hbehind⟩ := not_mem_of_named hothers hname
      rcases List.mem_append.1 hm with hm | hm
      · exact absurd (List.mem_map_of_mem hm) (heq ▸ hbefore)
      · rcases List.mem_cons.1 hm with rfl | hm
        · exact h
        · exact absurd (List.mem_map_of_mem hm) (heq ▸ hbehind)
    · exact hothers.known m hm hmem heq
  unknown := hothers.unknown
  once := hothers.once
  given := hothers.given

theorem takes_before (hfields : fields.WellFormed) (hname : name ∈ fields.names) :
    Takes (Schema.member outline fields.names fields.fill) before fields.noSlots
      (fields.slots values (before.map (·.1)).reverse) := by
  obtain ⟨hnot, -⟩ := not_mem_of_named hothers hname
  have htakes : Takes (Schema.member outline fields.names fields.fill) before
      (fields.slots values []) (fields.slots values ((before.map (·.1)).reverse ++ [])) := by
    refine Fields.takes_members hfields [] (fun m hm hmem => ?_) (fun m hm => ?_) ?_
    · have hne : m.1 ≠ name := fun heq => hnot (heq ▸ List.mem_map_of_mem hm)
      exact hothers.known m (List.mem_append_left _ hm) hmem hne
    · exact hothers.unknown m (List.mem_append_left _ hm)
    · intro other hmem
      have honce := hothers.once other hmem
      rw [List.map_append, List.count_append] at honce
      rw [List.append_nil]
      exact Nat.le_trans (Nat.le_add_right ..) honce
  rwa [List.append_nil, fields.slots_nil] at htakes

end member

/-- If the value in the gap is read, the whole is, with this value in it. -/
theorem Gap.reads (h : Gap t value s make octets) (hs : s.WellFormed)
    (hnull : value.head? ≠ some (Ascii.octet 'n')) (hvalue : ReadsItem t.read b value) :
    ReadsItem s.read (make b) octets := by
  induction h with
  | here => exact hvalue
  | optional =>
    rw [read]
    exact ⟨hvalue.1, reads_optional_of_ne hvalue hnull⟩
  | item _ hbefore hbehind hlist ih =>
    exact reads_sequence (List.rel_append hbefore (.cons (ih hs) hbehind)) hlist
  | shape _ hat hobject ih =>
    rw [read]
    refine ⟨Json.opens_of_head? hobject.head? (by decide), ?_⟩
    exact (reads_tagged_spelled _ hobject hat.mem_tags (hat.reads (ih (hat.wellFormed hs)).2)).map _
  | @member _ _ _ _ outline fields _ _ _ name _ put make _ before behind octets _ _ hat hothers
      hobject hmake ih =>
    have hmember : fields.ReadsAs (put (make b)) name octets :=
      hat.readsAs (ih (hat.wellFormed hs))
    exact reads_named hs (hmake b) (named_of_readsAs (hothers b) hat.mem_names hmember) hobject
  | row _ hrow hlist hmake ih =>
    exact reads_inOrder (hmake b) (hrow.readsInOrder (ih (hrow.wellFormed hs))) hlist

theorem Gap.opens (h : Gap t value s make octets) (hopens : Opens value) : Opens octets := by
  induction h with
  | here | optional => exact hopens
  | item _ _ _ hlist | row _ _ hlist => exact Json.opens_of_head? hlist.head? (by decide)
  | shape _ _ hobject | member _ _ _ hobject => exact Json.opens_of_head? hobject.head? (by decide)

theorem Gap.refuses (h : Gap t value s make octets) (hs : s.WellFormed) (b : β)
    (hnull : value.head? ≠ some (Ascii.octet 'n')) (hopens : Opens value)
    (hvalue : Refuses t.read value) : Refuses s.read octets := by
  induction h with
  | here => exact hvalue
  | optional =>
    rw [read]
    exact refuses_optional hopens hnull hvalue
  | item inner hbefore hbehind hlist ih =>
    rw [read]
    refine refuses_list hlist rfl fun row rest hrow => ?_
    exact fails_itemsUpTo hrow hbefore (inner.opens hopens) (ih hs) (ends_cons _ (by simp)) _
  | shape _ hat hobject ih =>
    rw [read]
    exact (refuses_tagged _ hobject hat.mem_tags (hat.refuses (ih (hat.wellFormed hs)))).bind _
  | @member _ _ _ _ outline fields _ _ _ name _ put make _ before behind octets _ _ hat hothers
      hobject hmake ih =>
    -- only the members in front count, and they are read whatever would be read in the gap
    have hname := hat.mem_names
    have hseen : name ∉ (before.map (·.1)).reverse := fun hmem =>
      (not_mem_of_named (hothers b) hname).1 (List.mem_reverse.1 hmem)
    have hmember : RefusesMember (Schema.member outline fields.names fields.fill name
        (fields.slots (put (make b)) (before.map (·.1)).reverse)) octets := by
      unfold Schema.member
      rw [if_pos hname]
      exact hat.refuses_fill (ih (hat.wellFormed hs)) hseen (make b)
    rw [read, recordWith]
    refine refuses_object hobject rfl fun items row rest hitems hrow => ?_
    have hmembers : Fails (members (Schema.member outline fields.names fields.fill) fields.noSlots)
        (row ++ Ascii.closeObject :: rest) :=
      fails_membersUpTo hrow hitems (takes_before (hothers b) hs hname) hmember
        (ends_cons _ (by simp)) _
    exact (hmembers.bind _).bind _
  | row inner hrow hlist _ ih =>
    rw [read, recordWith]
    refine refuses_list hlist rfl fun octets rest hoctets => ?_
    exact (hrow.fails_readRow (inner.opens hopens) (ih (hrow.wellFormed hs)) _ _ 0 hoctets
      (ends_cons _ (by simp))).bind _

end Schema
end SyncedConfig
