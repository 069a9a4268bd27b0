import SyncedConfig.Proofs.Accepted.Schema

/-!
# What is read as a record

The fields that have been read are accounted for by the members that came so far: one member for
each field that is there, and none for the others. This is kept by each member that is read, so that
at the end there is one member for every field but for those that have their values anyway.
-/
namespace SyncedConfig

open Json (IsList IsLooseValue IsObject IsRow)
open Json.Reader

variable {α σ τ : Type} {outline : Outline} {input rest : Bytes}

namespace Fields

/-- The fields are read in order from nothing but what is admitted for them. -/
def RowOnly (fields : Fields σ τ) : Prop :=
  ∀ (outline : Outline) (total i : Nat) (input rest : Bytes) (values : σ),
    fields.readRow outline total i input = .ok (values, rest) →
      ∃ items row, fields.AdmitsRow values items ∧ IsRow (decide (i = 0)) items row ∧
        input = row ++ rest

theorem rowOnly_done : Fields.done.RowOnly := by
  intro outline total i input rest values h
  rw [readRow] at h
  obtain ⟨-, rfl⟩ := eq_of_pure h
  refine ⟨[], [], ?_, .nil blank_nil, rfl⟩
  rw [AdmitsRow]

theorem rowOnly_field {s : Schema α} {rest : Fields σ τ} (h : s.ReadsOnly) (hrest : rest.RowOnly)
    (name : String) (absent : Option α) : (Fields.field name s absent rest).RowOnly := by
  intro outline total i input left (a, values) hread
  unfold readRow at hread
  obtain ⟨more, start, hnext, hfield⟩ := exists_of_bind hread
  cases more with
  | true =>
    simp only [↓reduceIte] at hfield
    obtain ⟨a', middle, ha, htail⟩ := exists_of_bind hfield
    obtain ⟨values', last, hvalues, hpure⟩ := exists_of_bind htail
    obtain ⟨heq, rfl⟩ := eq_of_pure hpure
    obtain ⟨rfl, rfl⟩ := Prod.mk.inj heq
    obtain ⟨before, behind, hbefore, hbehind, rfl⟩ := exists_of_nextItem hnext
    obtain ⟨blanks, item, hblanks, rfl, hadmits⟩ := h _ _ _ ha
    obtain ⟨items, row, hitems, hrow, rfl⟩ := hrest _ _ _ _ _ _ hvalues
    have hbehindItem : IsRow false items row := by simpa using hrow
    refine ⟨item :: items, _, ?_, .cons hbefore (hbehind.append hblanks) hbehindItem, ?_⟩
    · rw [AdmitsRow]
      exact ⟨hadmits, hitems⟩
    · simp
  | false =>
    simp only [Bool.false_eq_true, ↓reduceIte] at hfield
    cases absent with
    | none => cases hfield
    | some default =>
      obtain ⟨values', last, hvalues, hpure⟩ := exists_of_bind hfield
      obtain ⟨heq, rfl⟩ := eq_of_pure hpure
      obtain ⟨rfl, rfl⟩ := Prod.mk.inj heq
      obtain ⟨blanks, behind, hblanks, hclose, rfl⟩ := exists_of_nextItem hnext
      obtain ⟨items, row, hitems, hrow, rfl⟩ := hrest _ _ _ _ _ _ hvalues
      -- the bracket comes next, and so there are no items for the other fields either
      obtain ⟨rfl, rfl⟩ := IsRow.eq_nil_of_close (by simpa using hrow) hclose
      refine ⟨[], blanks, ?_, .nil hblanks, rfl⟩
      rw [AdmitsRow]
      exact ⟨rfl, hitems⟩

/-- What has been read of the fields is accounted for by the members that came. -/
def Collected : {σ τ : Type} → Fields σ τ → τ → List (String × Bytes) → Prop
  | _, _, .done, _, _ => True
  | _, _, .field name s _ rest, (a?, slots), members =>
    (match a? with
      | none => named name members = []
      | some a => ∃ octets, named name members = [octets] ∧ s.Admits a octets) ∧
    rest.Collected slots members

theorem collected_noSlots : {σ τ : Type} → (fields : Fields σ τ) →
    fields.Collected fields.noSlots []
  | _, _, .done => trivial
  | _, _, .field _ _ _ rest => ⟨rfl, collected_noSlots rest⟩

/-- A member that is named like no field says nothing about the fields. -/
theorem Collected.append_of_not_mem {wanted : String} {members : List (String × Bytes)}
    (octets : Bytes) : {σ τ : Type} → {fields : Fields σ τ} → wanted ∉ fields.names → {slots : τ} →
      fields.Collected slots members → fields.Collected slots (members ++ [(wanted, octets)])
  | _, _, .done, _, _, _ => trivial
  | _, _, .field name s _ rest, hwanted, (a?, slots), h => by
    rw [names, List.mem_cons, not_or] at hwanted
    have hname : named name (members ++ [(wanted, octets)]) = named name members := by
      rw [named_append, named_singleton_of_ne hwanted.1, List.append_nil]
    refine ⟨?_, Collected.append_of_not_mem octets hwanted.2 h.2⟩
    rw [hname]
    exact h.1

/-- A member with the name of a field fills it, and leaves the others as they are. -/
def FillsOnly (fields : Fields σ τ) : Prop :=
  ∀ wanted ∈ fields.names, ∀ slots members, fields.Collected slots members →
    ∀ input next rest, fields.fill wanted slots input = .ok (next, rest) →
      TakenBehindName input (fun octets => fields.Collected next (members ++ [(wanted, octets)]))
        rest

theorem fillsOnly_done : Fields.done.FillsOnly := fun _ hwanted => absurd hwanted List.not_mem_nil

theorem fillsOnly_field {s : Schema α} {rest : Fields σ τ} (h : s.ReadsOnly)
    (hrest : rest.FillsOnly) {name : String} (hname : name ∉ rest.names) (absent : Option α) :
    (Fields.field name s absent rest).FillsOnly := by
  rintro wanted hwanted ⟨a?, slots⟩ members ⟨hhead, htail⟩ input next left hread
  rw [fill] at hread
  split at hread
  next heq =>
    subst heq
    cases a? with
    | some => cases hread
    | none =>
      obtain ⟨a, rfl, htaken⟩ := exists_of_colon_bind h hread
      refine htaken.mono fun octets hadmits =>
        ⟨⟨octets, ?_, hadmits⟩, htail.append_of_not_mem octets hname⟩
      rw [named_append, hhead, named_singleton_self, List.nil_append]
  next hne =>
    have hmem : wanted ∈ rest.names := (List.mem_cons.1 hwanted).resolve_left (Ne.symm hne)
    obtain ⟨next', left', hfill, hpure⟩ := exists_of_bind hread
    obtain ⟨rfl, rfl⟩ := eq_of_pure hpure
    refine (hrest wanted hmem slots members htail _ _ _ hfill).mono fun octets hnext =>
      ⟨?_, hnext⟩
    rw [named_append, named_singleton_of_ne (Ne.symm hne), List.append_nil]
    exact hhead

/-- A member that is named like no field is passed over, unless it is refused. -/
theorem tracks_member {fields : Fields σ τ} (h : fields.FillsOnly) (outline : Outline) :
    Tracks (Schema.member outline fields.names fields.fill) fun members slots =>
      fields.Collected slots members ∧
        ∀ m ∈ members, m.1 ∉ fields.names → outline.strict = false ∧ IsLooseValue m.2 := by
  rintro members slots ⟨hcollected, hunknown⟩ name input next rest hread
  unfold Schema.member at hread
  split at hread
  next hname =>
    refine (h name hname slots members hcollected _ _ _ hread).mono fun octets hnext =>
      ⟨hnext, fun m hm hnot => ?_⟩
    rcases List.mem_append.1 hm with hbefore | hlast
    · exact hunknown m hbefore hnot
    · obtain rfl := List.mem_singleton.1 hlast
      exact absurd hname hnot
  next hname =>
    split at hread
    next => cases hread
    next hstrict =>
      obtain ⟨_, rfl, htaken⟩ := exists_of_colon_bind takesOnly_skipValue hread
      refine htaken.mono fun octets hloose =>
        ⟨hcollected.append_of_not_mem octets hname, fun m hm hnot => ?_⟩
      rcases List.mem_append.1 hm with hbefore | hlast
      · exact hunknown m hbefore hnot
      · obtain rfl := List.mem_singleton.1 hlast
        exact ⟨by simpa using hstrict, hloose⟩

/-- The values that are taken at the end are those of the members, and nothing is taken off the
data. -/
theorem admitsMembers_of_collect : {σ τ : Type} → {fields : Fields σ τ} → {slots : τ} →
    {values : σ} → {input rest : Bytes} → fields.collect slots input = .ok (values, rest) →
      input = rest ∧ ∀ members, fields.Collected slots members →
        fields.AdmitsMembers values members
  | _, _, .done, _, _, _, _, h => by
    refine ⟨(eq_of_pure h).2, fun _ _ => ?_⟩
    rw [AdmitsMembers]
    trivial
  | _, _, .field name s absent rest, (a?, slots), (a, values), input, left, h => by
    unfold collect at h
    cases hvalue : a?.or absent with
    | none =>
      rw [hvalue] at h
      cases h
    | some a' =>
      rw [hvalue] at h
      obtain ⟨values', left', hrest, hpure⟩ := exists_of_bind h
      obtain ⟨heq, rfl⟩ := eq_of_pure hpure
      obtain ⟨rfl, rfl⟩ := Prod.mk.inj heq
      obtain ⟨hinput, htail⟩ := admitsMembers_of_collect hrest
      refine ⟨hinput, fun members hcollected => ?_⟩
      obtain ⟨hhead, hslots⟩ := hcollected
      rw [AdmitsMembers]
      refine ⟨?_, htail members hslots⟩
      cases a? with
      | none => exact .inr ⟨hhead, hvalue⟩
      | some =>
        obtain rfl := Option.some.inj hvalue
        exact .inl hhead

end Fields

namespace Schema

theorem eq_of_assemble {make? : σ → Option α} {values : σ} {a : α}
    (h : assemble outline make? values input = .ok (a, rest)) :
    make? values = some a ∧ input = rest := by
  unfold assemble at h
  cases hmake : make? values with
  | none =>
    rw [hmake] at h
    cases h
  | some a' =>
    rw [hmake] at h
    obtain ⟨rfl, rfl⟩ := eq_of_pure h
    exact ⟨rfl, rfl⟩

theorem readsOnly_record {fields : Fields σ τ} (hrow : fields.RowOnly) (hfills : fields.FillsOnly)
    (outline : Outline) {view : α → σ} {make? : σ → Option α}
    (make_view : ∀ a, make? (view a) = some a) :
    (Schema.record outline fields view make? make_view).ReadsOnly := by
  rw [ReadsOnly, read]
  refine takesOnly_of_start fun b input a rest _ hread => ?_
  split at hread
  next hopen =>
    subst hopen
    have hitems (input : Bytes) (a : α) (rest : Bytes)
        (hread : (fields.readRow outline fields.names.length 0 >>= assemble outline make?) input =
          .ok (a, rest)) :
        ∃ items row, (∃ values, make? values = some a ∧ fields.AdmitsRow values items) ∧
          IsRow true items row ∧ input = row ++ rest := by
      obtain ⟨values, left, hvalues, hassemble⟩ := exists_of_bind hread
      obtain ⟨hmake, rfl⟩ := eq_of_assemble hassemble
      obtain ⟨items, row, hitems, hrow, rfl⟩ := hrow _ _ _ _ _ _ hvalues
      exact ⟨items, row, ⟨values, hmake, hitems⟩, hrow, rfl⟩
    obtain ⟨octets, heq, items, ⟨values, hmake, hadmits⟩, hlist⟩ :=
      exists_list_of_inList hitems hread
    refine ⟨octets, heq, ?_⟩
    rw [Admits]
    exact ⟨values, hmake, .inl ⟨items, hadmits, hlist⟩⟩
  split at hread
  next hopen =>
    subst hopen
    have hmembers (left : Bytes)
        (hread : (members (member outline fields.names fields.fill) fields.noSlots >>=
          fields.collect >>= assemble outline make?) input = .ok (a, left)) :
        ∃ last, members (member outline fields.names fields.fill) fields.noSlots input =
            .ok (last, left) ∧
          ∃ values, make? values = some a ∧ ∀ members, fields.Collected last members →
            fields.AdmitsMembers values members := by
      obtain ⟨values, _, hvalues, hassemble⟩ := exists_of_bind hread
      obtain ⟨hmake, rfl⟩ := eq_of_assemble hassemble
      obtain ⟨last, _, hlast, hcollect⟩ := exists_of_bind hvalues
      obtain ⟨rfl, hadmits⟩ := Fields.admitsMembers_of_collect hcollect
      exact ⟨last, hlast, values, hmake, hadmits⟩
    obtain ⟨members, last, octets, ⟨hcollected, hunknown⟩, ⟨values, hmake, hadmits⟩, hobject,
        heq⟩ :=
      isObject_of_inObject (Fields.tracks_member hfills outline)
        ⟨fields.collected_noSlots, List.forall_mem_nil _⟩ hread hmembers
    refine ⟨octets, heq, ?_⟩
    rw [Admits]
    exact ⟨values, hmake, .inr ⟨members, hadmits members hcollected, hunknown, hobject⟩⟩
  next => exact absurd hread (mistyped_ne_ok _ _ _ _ _)

end Schema

mutual

/-- A well-formed schema reads nothing but what it admits. -/
theorem Schema.readsOnly : {α : Type} → (s : Schema α) → s.WellFormed → s.ReadsOnly
  | _, .text, _ => Schema.readsOnly_text
  | _, .flag, _ => Schema.readsOnly_flag
  | _, .word w, _ => Schema.readsOnly_word w
  | _, .optional s, h => Schema.readsOnly_optional (s.readsOnly h.1)
  | _, .sequence s, h => Schema.readsOnly_sequence (s.readsOnly h)
  | _, .block n s, h => Schema.readsOnly_block (s.readsOnly h) n
  | _, .dictionary s, h => Schema.readsOnly_dictionary (s.readsOnly h)
  | _, .tag tags, _ => Schema.readsOnly_tag tags
  | _, .union cases _ _ make_view, h => Schema.readsOnly_union (cases.readsOnly h) make_view
  | _, .record outline fields _ _ make_view, h =>
    Schema.readsOnly_record (fields.rowOnly h) (fields.fillsOnly h) outline make_view

theorem Fields.rowOnly : {σ τ : Type} → (fields : Fields σ τ) → fields.WellFormed → fields.RowOnly
  | _, _, .done, _ => Fields.rowOnly_done
  | _, _, .field name s absent rest, h =>
    Fields.rowOnly_field (s.readsOnly h.1) (rest.rowOnly h.2.2) name absent

theorem Fields.fillsOnly :
    {σ τ : Type} → (fields : Fields σ τ) → fields.WellFormed → fields.FillsOnly
  | _, _, .done, _ => Fields.fillsOnly_done
  | _, _, .field _ s absent rest, h =>
    Fields.fillsOnly_field (s.readsOnly h.1) (rest.fillsOnly h.2.2) h.2.1 absent

theorem Cases.readsOnly : {σ : Type} → (cases : Cases σ) → cases.WellFormed → cases.ReadsOnly
  | _, .last tag s, h => Cases.readsOnly_last (s.readsOnly h) tag
  | _, .more tag s rest, h => Cases.readsOnly_more (s.readsOnly h.1) (rest.readsOnly h.2.2) tag

end

end SyncedConfig
