import SyncedConfig.Proofs.Spelling.Schema

/-!
# Records are read however they are written

A field that has been read is remembered by its name, so that what has been read of a record
does not depend on the order in which its members came. At the end the fields that were left out
have their values anyway.
-/
namespace SyncedConfig

open Json (IsList IsObject IsRow IsValue Opens)
open Json.Reader

variable {α σ τ : Type}

namespace Fields

/-- The items are read as the fields in order, but for some at the end that have their values
anyway. -/
def ReadsInOrder : {σ τ : Type} → Fields σ τ → σ → List Bytes → Prop
  | _, _, .done, _, items => items = []
  | _, _, .field _ _ absent rest, (a, values), [] => absent = some a ∧ rest.ReadsInOrder values []
  | _, _, .field _ s _ rest, (a, values), item :: items =>
    ReadsItem s.read a item ∧ rest.ReadsInOrder values items

/-- When no items are left, the values of the fields that are left are taken for them. -/
theorem readRow_of_reads {more : Bytes} (outline : Outline) (total : Nat) :
    {σ τ : Type} → (fields : Fields σ τ) → {values : σ} → {items : List Bytes} →
      fields.ReadsInOrder values items → (i : Nat) → {row : Bytes} →
        IsRow (decide (i = 0)) items row → ∃ left, Blank left ∧
          fields.readRow outline total i (row ++ Ascii.closeList :: more) =
            .ok (values, left ++ Ascii.closeList :: more)
  | _, _, .done, _, _, h, i, row, hrow => by
    rw [ReadsInOrder] at h
    subst h
    cases hrow with
    | nil hblanks =>
      rw [readRow]
      exact ⟨row, hblanks, rfl⟩
  | _, _, .field name s absent rest, (a, values), [], h, i, row, hrow => by
    obtain ⟨rfl, hvalues⟩ := h
    cases hrow with
    | nil hblanks =>
    obtain ⟨left, hleft, hread⟩ :=
      readRow_of_reads outline total rest hvalues (i + 1) (.nil blank_nil)
    refine ⟨left, hleft, ?_⟩
    rw [readRow, bind_of_ok (nextItem_close hblanks _ more)]
    simp only [Bool.false_eq_true, ↓reduceIte]
    rw [List.nil_append] at hread
    rw [bind_of_ok hread]
    rfl
  | _, _, .field name s absent rest, (a, values), item :: items, h, i, row, hrow => by
    obtain ⟨⟨hopens, hreads⟩, hvalues⟩ := h
    cases hrow with
    | @cons _ before behind _ row _ hbefore hbehind hrow =>
    have hbehindItem : IsRow (decide (i + 1 = 0)) items row := by simpa using hrow
    obtain ⟨left, hleft, hread⟩ :=
      readRow_of_reads outline total rest hvalues (i + 1) hbehindItem
    have hends : Ends (row ++ Ascii.closeList :: more) := hrow.ends (ends_cons _ (by simp))
    have hnext := nextItem_opens hbefore hbehind hopens (decide (i = 0))
      (row ++ Ascii.closeList :: more)
    refine ⟨left, hleft, ?_⟩
    simp only [List.append_assoc]
    unfold readRow
    rw [bind_of_ok hnext]
    simp only [↓reduceIte]
    rw [bind_of_ok (hreads.apply hends), bind_of_ok hread]
    rfl

def AcceptsRow (fields : Fields σ τ) : Prop :=
  ∀ values items, fields.InOrder values items → fields.ReadsInOrder values items

theorem acceptsRow_done : Fields.done.AcceptsRow := by
  intro values items h
  rw [InOrder] at h
  exact h

theorem acceptsRow_field {s : Schema α} {rest : Fields σ τ} (h : s.Accepts)
    (hrest : rest.AcceptsRow) (name : String) (absent : Option α) :
    (Fields.field name s absent rest).AcceptsRow := by
  intro (a, values) items hspells
  cases items with
  | nil =>
    rw [InOrder] at hspells
    exact ⟨hspells.1, hrest values [] hspells.2⟩
  | cons item items =>
    rw [InOrder] at hspells
    exact ⟨h a item hspells.1, hrest values items hspells.2⟩

/-- The octets are read as the value of the field with a name. -/
def ReadsAs : {σ τ : Type} → Fields σ τ → σ → String → Bytes → Prop
  | _, _, .done, _, _, _ => False
  | _, _, .field name s _ rest, (a, values), wanted, octets =>
    if name = wanted then ReadsItem s.read a octets else rest.ReadsAs values wanted octets

/-- The values of the fields that have been read. -/
def slots : {σ τ : Type} → Fields σ τ → σ → (seen : List String) → τ
  | _, _, .done, _, _ => ()
  | _, _, .field name _ _ rest, (a, values), seen =>
    (if name ∈ seen then some a else none, rest.slots values seen)

theorem slots_nil : {σ τ : Type} → (fields : Fields σ τ) → (values : σ) →
    fields.slots values [] = fields.noSlots
  | _, _, .done, _ => rfl
  | _, _, .field _ _ _ rest, (a, values) => by
    rw [slots, noSlots, slots_nil rest values, if_neg List.not_mem_nil]

theorem slots_cons_of_not_mem {wanted : String} (seen : List String) :
    {σ τ : Type} → {fields : Fields σ τ} → wanted ∉ fields.names → (values : σ) →
      fields.slots values (wanted :: seen) = fields.slots values seen
  | _, _, .done, _, _ => rfl
  | _, _, .field name _ _ rest, h, (a, values) => by
    rw [names, List.mem_cons, not_or] at h
    have hname : name ∈ wanted :: seen ↔ name ∈ seen := by simp [Ne.symm h.1]
    simp only [slots, hname, slots_cons_of_not_mem seen h.2 values]

theorem Named.mono {fields : Fields σ τ} {outline : Outline} {spells more : String → Bytes → Prop}
    {values : σ} {members : List (String × Bytes)}
    (h : fields.Named outline spells values members)
    (hmore : ∀ name octets, spells name octets → more name octets) :
    fields.Named outline more values members where
  known m hm hname := hmore m.1 m.2 (h.known m hm hname)
  unknown := h.unknown
  once := h.once
  given := h.given

theorem Given.mono {names more : List String} (hmore : ∀ name ∈ names, name ∈ more) :
    {σ τ : Type} → {fields : Fields σ τ} → {values : σ} → fields.Given values names →
      fields.Given values more
  | _, _, .done, _, _ => trivial
  | _, _, .field name _ _ _, (_, _), h => ⟨h.1.imp (hmore name) id, Given.mono hmore h.2⟩

/-- If every field has been read or has its value anyway, the values are there. -/
theorem collect_slots {seen : List String} : {σ τ : Type} → (fields : Fields σ τ) → {values : σ} →
    fields.Given values seen → (input : Bytes) →
      fields.collect (fields.slots values seen) input = .ok (values, input)
  | _, _, .done, _, _, _ => rfl
  | _, _, .field name _ absent rest, (a, values), h, input => by
    obtain ⟨hhead, htail⟩ := h
    have hvalue : (if name ∈ seen then some a else none).or absent = some a := by
      by_cases hname : name ∈ seen
      · rw [if_pos hname, Option.some_or]
      · rw [if_neg hname, Option.none_or, hhead.resolve_left hname]
    have hrest := collect_slots rest htail input
    rw [slots, collect]
    simp only [hvalue]
    rw [bind_of_ok hrest]
    rfl

/-- A field that has not been read is read, and the others stay as they are. -/
theorem fill_of_reads {wanted : String} {octets : Bytes} {seen : List String}
    (hseen : wanted ∉ seen) : {σ τ : Type} → (fields : Fields σ τ) → fields.WellFormed →
      {values : σ} → fields.ReadsAs values wanted octets →
        ReadsMember (fields.fill wanted (fields.slots values seen)) octets
          (fields.slots values (wanted :: seen))
  | _, _, .done, _, _, h => h.elim
  | _, _, .field name s absent rest, hfields, (a, values), h => by
    intro behind hbehind
    rw [ReadsAs] at h
    by_cases heq : name = wanted
    · subst heq
      rw [if_pos rfl] at h
      have hread := h.2.map fun a => (some a, rest.slots values seen)
      rw [fill, if_pos rfl]
      simp only [slots, hseen, ↓reduceIte, List.mem_cons, true_or,
        slots_cons_of_not_mem seen hfields.2.1 values]
      exact reads_colon hbehind hread
    · rw [if_neg heq] at h
      have hmem : name ∈ wanted :: seen ↔ name ∈ seen := by simp [heq]
      rw [fill, if_neg heq]
      simp only [slots, hmem]
      exact (fill_of_reads hseen rest hfields.2.2 h behind hbehind).map _

def AcceptsMember (fields : Fields σ τ) : Prop :=
  ∀ values wanted octets, fields.Spells values wanted octets → fields.ReadsAs values wanted octets

theorem acceptsMember_done : Fields.done.AcceptsMember := by
  intro values wanted octets h
  rw [Spells] at h
  exact h

theorem acceptsMember_field {s : Schema α} {rest : Fields σ τ} (h : s.Accepts)
    (hrest : rest.AcceptsMember) (name : String) (absent : Option α) :
    (Fields.field name s absent rest).AcceptsMember := by
  intro (a, values) wanted octets hspells
  rw [Spells] at hspells
  rw [ReadsAs]
  split at hspells
  next heq =>
    rw [if_pos heq]
    exact h a octets hspells
  next heq =>
    rw [if_neg heq]
    exact hrest values wanted octets hspells

/-- Members are read in any order, and those without a field are passed over. -/
theorem takes_members {fields : Fields σ τ} (h : fields.WellFormed) {outline : Outline}
    {values : σ} {members : List (String × Bytes)} (seen : List String)
    (hknown : ∀ m ∈ members, m.1 ∈ fields.names → fields.ReadsAs values m.1 m.2)
    (hunknown : ∀ m ∈ members, m.1 ∉ fields.names → outline.strict = false ∧ IsValue m.2)
    (honce : ∀ name ∈ fields.names, (members.map (·.1) ++ seen).count name ≤ 1) :
    Takes (Schema.member outline fields.names fields.fill) members (fields.slots values seen)
      (fields.slots values ((members.map (·.1)).reverse ++ seen)) := by
  induction members generalizing seen with
  | nil => exact .nil _
  | cons m members ih =>
    obtain ⟨name, value⟩ := m
    obtain ⟨hknownHead, hknown⟩ := List.forall_mem_cons.1 hknown
    obtain ⟨hunknownHead, hunknown⟩ := List.forall_mem_cons.1 hunknown
    have hcounts : ∀ name' ∈ fields.names,
        (members.map (·.1) ++ name :: seen).count name' ≤ 1 := fun name' hname' =>
      le_of_eq_of_le (List.perm_middle.count_eq name') (honce name' hname')
    have hhead : ReadsMember (Schema.member outline fields.names fields.fill name
        (fields.slots values seen)) value (fields.slots values (name :: seen)) := by
      intro behind hbehind
      by_cases hname : name ∈ fields.names
      · have hseen : name ∉ seen := by
          have hcount := honce name hname
          rw [List.map_cons, List.cons_append, List.count_cons_self, List.count_append] at hcount
          exact List.count_eq_zero.1 (by omega)
        unfold Schema.member
        rw [if_pos hname]
        exact fill_of_reads hseen fields h (hknownHead hname) behind hbehind
      · obtain ⟨hstrict, hvalue⟩ := hunknownHead hname
        have hskip := (reads_skipValue hvalue.isLooseValue).map fun _ => fields.slots values seen
        unfold Schema.member
        rw [if_neg hname, hstrict, slots_cons_of_not_mem seen hname values]
        exact reads_colon hbehind hskip
    have htail := ih (name :: seen) hknown hunknown hcounts
    rw [List.map_cons, List.reverse_cons, List.append_assoc, List.singleton_append]
    exact .cons hhead htail

end Fields

namespace Schema

variable {fields : Fields σ τ} {outline : Outline} {view : α → σ} {make? : σ → Option α}
  {make_view : ∀ a, make? (view a) = some a} {values : σ} {a : α} {octets : Bytes}

theorem reads_inOrder {items : List Bytes} (hmake : make? values = some a)
    (hitems : fields.ReadsInOrder values items) (hlist : IsList items octets) :
    ReadsItem (Schema.record outline fields view make? make_view).read a octets := by
  refine ⟨Json.opens_of_head? hlist.head? (by decide), ?_⟩
  rw [read, recordWith]
  refine reads_list hlist rfl fun row rest hrow => ?_
  obtain ⟨left, hleft, hread⟩ :=
    Fields.readRow_of_reads outline fields.names.length fields hitems 0 hrow
  refine ⟨left, hleft, ?_⟩
  rw [bind_of_ok hread, assemble, hmake]
  rfl

/-- However the members are ordered, they fill the fields of the record. -/
theorem takes_named {members : List (String × Bytes)} (h : fields.WellFormed)
    (hmembers : fields.Named outline (fields.ReadsAs values) values members) :
    Takes (member outline fields.names fields.fill) members fields.noSlots
        (fields.slots values (members.map (·.1)).reverse) ∧
      ∀ input, fields.collect (fields.slots values (members.map (·.1)).reverse) input =
        .ok (values, input) := by
  have htakes := Fields.takes_members h [] hmembers.known hmembers.unknown
    (by simpa using hmembers.once)
  rw [List.append_nil, fields.slots_nil] at htakes
  have hgiven : fields.Given values (members.map (·.1)).reverse :=
    Fields.Given.mono (fun name hname => List.mem_reverse.2 hname) hmembers.given
  exact ⟨htakes, fields.collect_slots hgiven⟩

theorem reads_named {members : List (String × Bytes)} (h : fields.WellFormed)
    (hmake : make? values = some a)
    (hmembers : fields.Named outline (fields.ReadsAs values) values members)
    (hobject : IsObject members octets) :
    ReadsItem (Schema.record outline fields view make? make_view).read a octets := by
  obtain ⟨htakes, hcollect⟩ := takes_named h hmembers
  refine ⟨Json.opens_of_head? hobject.head? (by decide), ?_⟩
  rw [read, recordWith]
  refine reads_object hobject htakes rfl fun input rest hread => ?_
  rw [bind_assoc, bind_of_ok hread, bind_of_ok (hcollect rest), assemble, hmake]
  rfl

theorem accepts_record (h : fields.WellFormed) (hrow : fields.AcceptsRow)
    (hmember : fields.AcceptsMember) (outline : Outline) {view : α → σ} {make? : σ → Option α}
    (make_view : ∀ a, make? (view a) = some a) :
    (Schema.record outline fields view make? make_view).Accepts := by
  intro a octets hspells
  rw [Spells] at hspells
  obtain ⟨values, hmake, ⟨items, hitems, hlist⟩ | ⟨members, hmembers, hobject⟩⟩ := hspells
  · exact reads_inOrder hmake (hrow values items hitems) hlist
  · exact reads_named h hmake (hmembers.mono (hmember values)) hobject

end Schema

mutual

/-- Whatever a value of a well-formed schema is written as, it is read from it. -/
theorem Schema.accepts : {α : Type} → (s : Schema α) → s.WellFormed → s.Accepts
  | _, .text, _ => Schema.accepts_text
  | _, .flag, _ => Schema.accepts_flag
  | _, .word _, h => Schema.accepts_word h.1 h.2
  | _, .optional s, h => Schema.accepts_optional (s.accepts h.1) h.2
  | _, .sequence s, h => Schema.accepts_sequence (s.accepts h)
  | _, .block n s, h => Schema.accepts_block (s.accepts h) n
  | _, .dictionary s, h => Schema.accepts_dictionary (s.accepts h)
  | _, .tag tags, _ => Schema.accepts_tag tags
  | _, .union cases _ _ make_view, h => Schema.accepts_union (cases.accepts h) make_view
  | _, .record outline fields _ _ make_view, h =>
    Schema.accepts_record h (fields.acceptsRow h) (fields.acceptsMember h) outline make_view

theorem Fields.acceptsRow :
    {σ τ : Type} → (fields : Fields σ τ) → fields.WellFormed → fields.AcceptsRow
  | _, _, .done, _ => Fields.acceptsRow_done
  | _, _, .field name s absent rest, h =>
    Fields.acceptsRow_field (s.accepts h.1) (rest.acceptsRow h.2.2) name absent

theorem Fields.acceptsMember :
    {σ τ : Type} → (fields : Fields σ τ) → fields.WellFormed → fields.AcceptsMember
  | _, _, .done, _ => Fields.acceptsMember_done
  | _, _, .field name s absent rest, h =>
    Fields.acceptsMember_field (s.accepts h.1) (rest.acceptsMember h.2.2) name absent

theorem Cases.accepts : {σ : Type} → (cases : Cases σ) → cases.WellFormed → cases.Accepts
  | _, .last tag s, h => Cases.accepts_last (s.accepts h) tag
  | _, .more _ s rest, h => Cases.accepts_more (s.accepts h.1) (rest.accepts h.2.2) h.2.1

end

/-- A value is decoded from whatever it is written as, with blanks around it. -/
theorem Schema.decode_of_spells {s : Schema α} (h : s.WellFormed) {a : α} {octets : Bytes}
    (hspells : s.Spells a octets) {before behind : Bytes} (hbefore : Blank before)
    (hbehind : Blank behind) : s.decode (before ++ (octets ++ behind)) = .ok a :=
  (s.accepts h a octets hspells).2.decode_padded hbefore hbehind

end SyncedConfig
