import SyncedConfig.Proofs.Accepted.Records

/-!
# What is admitted is a value

Whatever a schema admits is written as a value. So where a record is taken apart, its fields are the
members of an object or the items of a list, and none of them lies across the others.
-/
namespace SyncedConfig

namespace Json

theorem isWhole_octets (n : Nat) : IsWhole (Decimal.octets n) := by
  rcases Nat.eq_zero_or_pos n with rfl | hn
  · exact .inl Decimal.octets_zero
  · obtain ⟨b, rest, hoctets, hb⟩ := Decimal.octets_eq_cons hn
    have hdigits : IsDigits (Decimal.octets n) :=
      ⟨Decimal.octets_ne_nil n, fun _ => Decimal.isDigit_of_mem_octets⟩
    exact .inr ⟨b, rest, hoctets, hb, hdigits⟩

theorem isNumber_ofInt (n : Int) : IsNumber (Utf8.encode (Decimal.ofInt n)) := by
  cases n with
  | ofNat n => exact ⟨[], _, [], [], .inl rfl, isWhole_octets n, .inl rfl, .inl rfl, by simp; rfl⟩
  | negSucc n =>
    exact ⟨[Ascii.minus], _, [], [], .inr rfl, isWhole_octets (n + 1), .inl rfl, .inl rfl,
      by simp; rfl⟩

end Json

open Json (IsList IsLooseValue IsObject)

variable {α σ τ : Type}

theorem mem_named_iff {name : String} {octets : Bytes} {members : List (String × Bytes)} :
    octets ∈ named name members ↔ (name, octets) ∈ members := by
  simp [named]

/-- The members of a record are values, whether there are fields with their names or not. -/
theorem isLooseValue_of_names {names : List String} {outline : Outline}
    {members : List (String × Bytes)} (hknown : ∀ m ∈ members, m.1 ∈ names → IsLooseValue m.2)
    (hunknown : ∀ m ∈ members, m.1 ∉ names → outline.strict = false ∧ IsLooseValue m.2) :
    ∀ m ∈ members, IsLooseValue m.2 := by
  intro m hm
  by_cases hname : m.1 ∈ names
  · exact hknown m hm hname
  · exact (hunknown m hm hname).2

mutual

theorem Schema.Admits.isLooseValue : {α : Type} → (s : Schema α) → {a : α} → {octets : Bytes} →
    s.Admits a octets → IsLooseValue octets
  | _, .text, _, _, h => by
    rw [Schema.Admits] at h
    exact .text h.isLooseText
  | _, .flag, b, _, h => by
    rw [Schema.Admits] at h
    exact h ▸ .bool b
  | _, .word w, _, _, h => by
    rw [Schema.Admits] at h
    exact h ▸ .number (Json.isNumber_ofInt _)
  | _, .optional s, none, _, h => by
    rw [Schema.Admits] at h
    exact h ▸ .null
  | _, .optional s, some a, _, h => by
    rw [Schema.Admits] at h
    exact h.isLooseValue s
  | _, .sequence s, _, _, h => by
    rw [Schema.Admits] at h
    obtain ⟨items, hitems, hlist⟩ := h
    refine hlist.isLooseValue fun item hitem => ?_
    obtain ⟨a, -, ha⟩ := Json.exists_of_mem_items hitems hitem
    exact ha.isLooseValue s
  | _, .block n s, _, _, h => by
    rw [Schema.Admits] at h
    obtain ⟨items, hitems, hlist⟩ := h
    refine hlist.isLooseValue fun item hitem => ?_
    obtain ⟨a, -, ha⟩ := Json.exists_of_mem_items hitems hitem
    exact ha.isLooseValue s
  | _, .dictionary s, _, _, h => by
    rw [Schema.Admits] at h
    obtain ⟨entries, members, -, hmembers, hobject⟩ := h
    refine hobject.isLooseValue fun m hm => ?_
    obtain ⟨e, -, -, he⟩ := Json.exists_of_mem_items hmembers hm
    exact he.isLooseValue s
  | _, .tag tags, _, _, h => by
    rw [Schema.Admits] at h
    obtain ⟨tag, -, hspells | hobject⟩ := h
    · exact .text hspells.isLooseText
    · exact hobject.isLooseValue (List.forall_mem_singleton.2 .null)
  | _, .union cases _ _ _, _, _, h => by
    rw [Schema.Admits] at h
    obtain ⟨shape, tag, value, -, hcase, hobject⟩ := h
    exact hobject.isLooseValue (List.forall_mem_singleton.2 (hcase.isLooseValue cases))
  | _, .record outline fields _ _ _, _, _, h => by
    rw [Schema.Admits] at h
    obtain ⟨values, -, ⟨items, hitems, hlist⟩ | ⟨members, hmembers, hunknown, hobject⟩⟩ := h
    · exact hlist.isLooseValue (hitems.isLooseValue fields)
    · exact hobject.isLooseValue (isLooseValue_of_names (hmembers.isLooseValue fields) hunknown)

theorem Fields.AdmitsRow.isLooseValue : {σ τ : Type} → (fields : Fields σ τ) → {values : σ} →
    {items : List Bytes} → fields.AdmitsRow values items → ∀ item ∈ items, IsLooseValue item
  | _, _, .done, _, _, h => by
    rw [Fields.AdmitsRow] at h
    exact h ▸ List.forall_mem_nil _
  | _, _, .field _ _ _ _, _, [], _ => List.forall_mem_nil _
  | _, _, .field _ s _ rest, (_, _), item :: items, h => by
    rw [Fields.AdmitsRow] at h
    exact List.forall_mem_cons.2 ⟨h.1.isLooseValue s, h.2.isLooseValue rest⟩

theorem Fields.AdmitsMembers.isLooseValue : {σ τ : Type} → (fields : Fields σ τ) → {values : σ} →
    {members : List (String × Bytes)} → fields.AdmitsMembers values members →
      ∀ m ∈ members, m.1 ∈ fields.names → IsLooseValue m.2
  | _, _, .done, _, _, _ => fun _ _ hname => absurd hname List.not_mem_nil
  | _, _, .field name s _ rest, (_, _), members, h => by
    rw [Fields.AdmitsMembers] at h
    intro (other, octets) hm hname
    rcases List.mem_cons.1 hname with rfl | hbehind
    · have hmem := mem_named_iff.2 hm
      obtain ⟨octets', hnamed, hadmits⟩ | ⟨hnone, -⟩ := h.1
      · rw [hnamed, List.mem_singleton] at hmem
        exact hmem ▸ hadmits.isLooseValue s
      · rw [hnone] at hmem
        cases hmem
    · exact h.2.isLooseValue rest (other, octets) hm hbehind

theorem Cases.Admits.isLooseValue : {σ : Type} → (cases : Cases σ) → {shape : σ} → {tag : String} →
    {octets : Bytes} → cases.Admits shape tag octets → IsLooseValue octets
  | _, .last _ s, _, _, _, h => by
    rw [Cases.Admits] at h
    exact h.2.isLooseValue s
  | _, .more _ s _, .inl _, _, _, h => by
    rw [Cases.Admits] at h
    exact h.2.isLooseValue s
  | _, .more _ _ rest, .inr _, _, _, h => by
    rw [Cases.Admits] at h
    exact h.isLooseValue rest

end

/-- The octets are a list of values with other octets in some place. -/
def IsListWith (place : Nat) (value octets : Bytes) : Prop :=
  ∃ items, IsList items octets ∧ (∀ item ∈ items, IsLooseValue item) ∧ items[place]? = some value

/-- The octets are a record with a field that is written by other octets: an object with one member
of this name, or a list with the field in its place. -/
def IsRecordWith (name : String) (place : Nat) (value octets : Bytes) : Prop :=
  (∃ members, IsObject members octets ∧ (∀ m ∈ members, IsLooseValue m.2) ∧
    named name members = [value]) ∨
  IsListWith place value octets

namespace Fields

variable {p : Bytes → Prop}

end Fields

end SyncedConfig
