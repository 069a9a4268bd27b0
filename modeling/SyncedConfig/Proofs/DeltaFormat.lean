import SyncedConfig.Kind
import SyncedConfig.Proofs.Spelling.Written

/-!
# The format of deltas

The schemas of the changes of all kinds are well-formed, and so is every schema that they are
made of, down to keys, modes and durations. Hence a host reads back any delta and any part of
one, and no two values share their octets.
-/
namespace SyncedConfig

mutual

def Schema.inner : {α : Type} → Schema α → List ((β : Type) × Schema β)
  | _, .text | _, .flag | _, .word _ | _, .tag _ => []
  | _, .optional s | _, .sequence s | _, .block _ s | _, .dictionary s => ⟨_, s⟩ :: s.inner
  | _, .union cases _ _ _ => cases.inner
  | _, .record _ fields _ _ _ => fields.inner

def Fields.inner : {σ τ : Type} → Fields σ τ → List ((β : Type) × Schema β)
  | _, _, .done => []
  | _, _, .field _ s _ rest => ⟨_, s⟩ :: (s.inner ++ rest.inner)

def Cases.inner : {σ : Type} → Cases σ → List ((β : Type) × Schema β)
  | _, .last _ s => ⟨_, s⟩ :: s.inner
  | _, .more _ s rest => ⟨_, s⟩ :: (s.inner ++ rest.inner)

end

def Schema.parts {α : Type} (s : Schema α) : List ((β : Type) × Schema β) := ⟨α, s⟩ :: s.inner

mutual

theorem Schema.wellFormed_of_mem_inner : {α : Type} → (s : Schema α) → s.WellFormed →
    ∀ p ∈ s.inner, p.2.WellFormed
  | _, .text, _ | _, .flag, _ | _, .word _, _ | _, .tag _, _ => nofun
  | _, .optional s, h => List.forall_mem_cons.2 ⟨h.1, s.wellFormed_of_mem_inner h.1⟩
  | _, .sequence s, h => List.forall_mem_cons.2 ⟨h, s.wellFormed_of_mem_inner h⟩
  | _, .block _ s, h => List.forall_mem_cons.2 ⟨h, s.wellFormed_of_mem_inner h⟩
  | _, .dictionary s, h => List.forall_mem_cons.2 ⟨h, s.wellFormed_of_mem_inner h⟩
  | _, .union cases _ _ _, h => cases.wellFormed_of_mem_inner h
  | _, .record _ fields _ _ _, h => fields.wellFormed_of_mem_inner h

theorem Fields.wellFormed_of_mem_inner : {σ τ : Type} → (fields : Fields σ τ) →
    fields.WellFormed → ∀ p ∈ fields.inner, p.2.WellFormed
  | _, _, .done, _ => nofun
  | _, _, .field _ s _ rest, h => List.forall_mem_cons.2 ⟨h.1, List.forall_mem_append.2
      ⟨s.wellFormed_of_mem_inner h.1, rest.wellFormed_of_mem_inner h.2.2⟩⟩

theorem Cases.wellFormed_of_mem_inner : {σ : Type} → (cases : Cases σ) → cases.WellFormed →
    ∀ p ∈ cases.inner, p.2.WellFormed
  | _, .last _ s, h => List.forall_mem_cons.2 ⟨h, s.wellFormed_of_mem_inner h⟩
  | _, .more _ s rest, h => List.forall_mem_cons.2 ⟨h.1, List.forall_mem_append.2
      ⟨s.wellFormed_of_mem_inner h.1, rest.wellFormed_of_mem_inner h.2.2⟩⟩

end

theorem Schema.wellFormed_of_mem_parts {α : Type} {s : Schema α} (h : s.WellFormed) :
    ∀ p ∈ s.parts, p.2.WellFormed :=
  List.forall_mem_cons.2 ⟨h, s.wellFormed_of_mem_inner h⟩

namespace Kind

theorem changeSchema_wellFormed (k : Kind) : k.changeSchema.WellFormed := by
  cases k with
  | profile => decide
  | collection c => cases c <;> decide
  | info => decide

/-- A change of any kind, and any part of one, is decoded from what it is encoded as, and
different values are encoded differently. -/
theorem decode_encode_part (k : Kind) : ∀ p ∈ k.changeSchema.parts,
    (∀ a, p.2.decode (p.2.encode a) = .ok a) ∧ Function.Injective p.2.encode := by
  intro p hp
  have h : p.2.WellFormed := Schema.wellFormed_of_mem_parts k.changeSchema_wellFormed p hp
  exact ⟨Schema.decode_encode h, Schema.encode_injective h⟩

/-- A legacy group with control characters in its id, the longest duration and two people. -/
theorem legacyGroup_decode_encode :
    let g : LegacyGroup := {
      sessionId := "\x00\"\\é"
      secretKey := [0, 255]
      timer := ⟨0xffffffffffffffff, 999999999, by decide⟩
      people := (KeyMap.empty.insert "b" true).insert "a" false }
    ⟨LegacyGroup, LegacyGroup.schema⟩ ∈ groups.changeSchema.parts ∧
      LegacyGroup.schema.decode (LegacyGroup.schema.encode g) = .ok g := by
  intro g
  have hp : ⟨LegacyGroup, LegacyGroup.schema⟩ ∈ groups.changeSchema.parts := by
    simp [Schema.parts, Schema.inner, Fields.inner, Cases.inner, changeSchema, Delta.schema,
      Schema.plain, CollectionKind.recordSchema, UserGroup.schema, UserGroup.cases]
  exact ⟨hp, (decode_encode_part groups _ hp).1 g⟩

end Kind
end SyncedConfig
