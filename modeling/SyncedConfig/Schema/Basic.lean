import SyncedConfig.Bytes.Basic
import SyncedConfig.KeyMap
import SyncedConfig.Word

/-!
# Schemas

A schema describes how the values of a type are laid out in a document. Writing and
reading are defined once for all schemas, so that a type states its layout and gets both.
Where a schema takes a type apart it also says how the parts make a value again, and
proves that nothing is lost on the way.
-/
namespace SyncedConfig

/-- Names for the values of a type that carry no data. -/
structure Tags (α : Type) where
  table : List (String × α)
  name : α → String
  lookup_name : ∀ a, table.lookup (name a) = some a

/-- What messages call a record, and how it treats members that it does not know. -/
structure Outline where
  name : String
  /-- A strict record refuses unknown members. -/
  strict : Bool := false

def Outline.counted (outline : Outline) (fields : Nat) : String :=
  if outline.strict then s!"struct {outline.name}"
  else if fields = 1 then s!"struct {outline.name} with 1 element"
  else s!"struct {outline.name} with {fields} elements"

mutual

/-- The layout of the values of a type. -/
inductive Schema : Type → Type 1
  | text : Schema String
  | flag : Schema Bool
  | word {α : Type} (word : Word α) : Schema α
  | optional {α : Type} (schema : Schema α) : Schema (Option α)
  | sequence {α : Type} (item : Schema α) : Schema (List α)
  /-- A list of exactly `n` elements. -/
  | block {α : Type} (n : Nat) (item : Schema α) : Schema (Vector α n)
  /-- An object whose names are data. -/
  | dictionary {α : Type} (value : Schema α) : Schema (KeyMap String α)
  | tag {α : Type} (tags : Tags α) : Schema α
  /-- One of several shapes, told apart by a tag in front of it. -/
  | union {α σ : Type} (cases : Cases σ) (view : α → σ) (make : σ → α)
      (make_view : ∀ a, make (view a) = a) : Schema α
  /-- An object with fixed names. Some values of the fields may have no record. -/
  | record {α σ τ : Type} (outline : Outline) (fields : Fields σ τ) (view : α → σ)
      (make? : σ → Option α) (make_view : ∀ a, make? (view a) = some a) : Schema α

/-- The fields of a record: the type of their values, and the type of the values that have
been read so far. -/
inductive Fields : Type → Type → Type 1
  | done : Fields Unit Unit
  /-- A field may be left out if there is a value to take in its place. -/
  | field {α σ τ : Type} (name : String) (schema : Schema α) (absent : Option α)
      (rest : Fields σ τ) : Fields (α × σ) (Option α × τ)

/-- The shapes of a union, each with its tag. -/
inductive Cases : Type → Type 1
  | last {α : Type} (tag : String) (schema : Schema α) : Cases α
  | more {α σ : Type} (tag : String) (schema : Schema α) (rest : Cases σ) : Cases (α ⊕ σ)

end

def Fields.names {σ τ : Type} : Fields σ τ → List String
  | .done => []
  | .field name _ _ rest => name :: rest.names

def Cases.tags {σ : Type} : Cases σ → List String
  | .last tag _ => [tag]
  | .more tag _ rest => tag :: rest.tags

namespace Schema

def bytes : Schema Bytes := .sequence (.word .uint8)

/-- A record that every value of its fields makes. -/
def plain {α σ τ : Type} (name : String) (fields : Fields σ τ) (view : α → σ)
    (make : σ → α) (make_view : ∀ a, make (view a) = a) : Schema α :=
  .record { name } fields view (fun s => some (make s)) (by simp [make_view])

end Schema
end SyncedConfig
