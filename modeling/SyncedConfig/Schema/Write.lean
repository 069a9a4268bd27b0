import SyncedConfig.Bytes.Utf8
import SyncedConfig.Json.Printer
import SyncedConfig.Schema.Basic

/-!
# Writing by a schema

Records are written as objects with all their fields in order, dictionaries in the order
of their names, unions as objects with the tag as only name.
-/
namespace SyncedConfig

mutual

/-- The document of a value. -/
def Schema.write : {α : Type} → Schema α → α → Json
  | _, .text, s => .text s
  | _, .flag, b => .bool b
  | _, .word w, n => .integer (w.toInt n)
  | _, .optional s, a? =>
    match a? with
    | none => .null
    | some a => s.write a
  | _, .sequence s, as => .list (as.map s.write)
  | _, .block _ s, as => .list (as.toList.map s.write)
  | _, .dictionary s, m => .object (m.entries.map fun e => (e.1, s.write e.2))
  | _, .tag tags, a => .text (tags.name a)
  | _, .union cases view _ _, a => .object [cases.write (view a)]
  | _, .record _ fields view _ _, a => .object (fields.write (view a))

def Fields.write : {σ τ : Type} → Fields σ τ → σ → List (String × Json)
  | _, _, .done, _ => []
  | _, _, .field name s _ rest, values => (name, s.write values.1) :: rest.write values.2

def Cases.write : {σ : Type} → Cases σ → σ → String × Json
  | _, .last tag s, a => (tag, s.write a)
  | _, .more tag s _, .inl a => (tag, s.write a)
  | _, .more _ _ rest, .inr b => rest.write b

end

def Schema.encode {α : Type} (s : Schema α) (a : α) : Bytes :=
  Utf8.ofString (s.write a).compact

def Schema.print {α : Type} (s : Schema α) (a : α) : String := (s.write a).compact

end SyncedConfig
