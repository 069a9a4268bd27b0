import SyncedConfig.Schema.Read
import SyncedConfig.Schema.Write

/-!
# Well-formed schemas

Nothing that a schema writes is mistaken for something else, provided that its integers fit 64
bits, that nulls and values are told apart, and that no two fields or shapes share a name.
-/
namespace SyncedConfig

-- The document of a value is known as soon as the way in which its schema is built is.
attribute [simp] Schema.write Fields.write Cases.write

/-- Whether a value may be written as a null. -/
def Schema.nullable : {α : Type} → Schema α → Bool
  | _, .optional _ => true
  | _, .text | _, .flag | _, .word _ | _, .sequence _ | _, .block _ _ | _, .dictionary _
  | _, .tag _ | _, .union _ _ _ _ | _, .record _ _ _ _ _ => false

theorem Fields.write_names : {σ τ : Type} → (fields : Fields σ τ) → (values : σ) →
    (fields.write values).map (·.1) = fields.names
  | _, _, .done, _ => by rw [write, names, List.map_nil]
  | _, _, .field name _ _ rest, values => by
    rw [write, names, List.map_cons, write_names rest]

mutual

/-- Whether nothing that the schema writes can be mistaken for something else. -/
def Schema.WellFormed : {α : Type} → Schema α → Prop
  | _, .text | _, .flag | _, .tag _ => True
  | _, .word w => -0x8000000000000000 ≤ w.least ∧ w.greatest ≤ 0xffffffffffffffff
  | _, .optional s => s.WellFormed ∧ s.nullable = false
  | _, .sequence s | _, .block _ s | _, .dictionary s => s.WellFormed
  | _, .union cases _ _ _ => cases.WellFormed
  | _, .record _ fields _ _ _ => fields.WellFormed

/-- Whether the fields have different names and well-formed schemas. -/
def Fields.WellFormed : {σ τ : Type} → Fields σ τ → Prop
  | _, _, .done => True
  | _, _, .field name s _ rest => s.WellFormed ∧ name ∉ rest.names ∧ rest.WellFormed

/-- Whether the shapes have different tags and well-formed schemas. -/
def Cases.WellFormed : {σ : Type} → Cases σ → Prop
  | _, .last _ s => s.WellFormed
  | _, .more tag s rest => s.WellFormed ∧ tag ∉ rest.tags ∧ rest.WellFormed

end

mutual

instance Schema.decidableWellFormed : {α : Type} → (s : Schema α) → Decidable s.WellFormed
  | _, .text | _, .flag | _, .tag _ => inferInstanceAs (Decidable True)
  | _, .word w => inferInstanceAs
      (Decidable (-0x8000000000000000 ≤ w.least ∧ w.greatest ≤ 0xffffffffffffffff))
  | _, .optional s =>
    have := s.decidableWellFormed
    inferInstanceAs (Decidable (s.WellFormed ∧ s.nullable = false))
  | _, .sequence s | _, .block _ s | _, .dictionary s => s.decidableWellFormed
  | _, .union cases _ _ _ => cases.decidableWellFormed
  | _, .record _ fields _ _ _ => fields.decidableWellFormed

instance Fields.decidableWellFormed :
    {σ τ : Type} → (fields : Fields σ τ) → Decidable fields.WellFormed
  | _, _, .done => inferInstanceAs (Decidable True)
  | _, _, .field name s _ rest =>
    have := s.decidableWellFormed
    have := rest.decidableWellFormed
    inferInstanceAs (Decidable (s.WellFormed ∧ name ∉ rest.names ∧ rest.WellFormed))

instance Cases.decidableWellFormed : {σ : Type} → (cases : Cases σ) → Decidable cases.WellFormed
  | _, .last _ s => s.decidableWellFormed
  | _, .more tag s rest =>
    have := s.decidableWellFormed
    have := rest.decidableWellFormed
    inferInstanceAs (Decidable (s.WellFormed ∧ tag ∉ rest.tags ∧ rest.WellFormed))

end

end SyncedConfig
