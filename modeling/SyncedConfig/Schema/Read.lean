import SyncedConfig.Json.Reader.Brackets
import SyncedConfig.Json.Reader.Ignored
import SyncedConfig.Json.Reader.Scalar
import SyncedConfig.Schema.Basic

/-!
# Reading by a schema

A record is read from an object with its fields in any order, none of them twice, or from
a list with its fields in order. Fields that are left out take the value that the schema
has for them. A union is read from an object with the tag as only name. A value without
data may be written as its tag alone.
-/
namespace SyncedConfig

open Json (Reader)
open Json.Reader

namespace Schema

variable {α σ τ : Type}

/-- Reads exactly `n` elements of a list that is to have `total` of them. -/
def blockItems (item : Reader α) (total : Nat) : (n : Nat) → Reader (Vector α n)
  | 0 => return #v[]
  | n + 1 => do
    let start ← blockItems item total n
    if ← nextItem (n = 0) then return start.push (← item)
    else failWhole (.badLength n s!"an array of length {total}")

/-- Reads a tag, whose opening quote comes next, and looks it up among those that are known. -/
def knownTag (known : List String) : Reader String := do
  let tag ← textToken
  if tag ∈ known then return tag else fail (.unknownTag tag known)

/-- Reads a tag alone or an object with the tag as only name. -/
def tagged (known : List String) (alone : String → Reader α) (payload : String → Reader α) :
    Reader α := do
  let b ← valueStart
  if b = Ascii.quote then alone (← knownTag known)
  else if b = Ascii.openObject then
    advance
    skipBlanks
    match ← peek? with
    | none => failNext .endInObject
    | some b =>
      if b = Ascii.closeObject then failNext .valueExpected
      else if b = Ascii.quote then
        let tag ← knownTag known
        colon
        let a ← payload tag
        skipBlanks
        match ← peek? with
        | none => fail .endInObject
        | some b =>
          if b = Ascii.closeObject then
            advance
            return a
          else fail .valueExpected
      else failNext .nameExpected
  else failNext .valueExpected

def Tags.value (tags : Tags α) (tag : String) : Reader α :=
  match tags.table.lookup tag with
  | some a => return a
  | none => fail (.unknownTag tag (tags.table.map (·.1)))

def member (outline : Outline) (names : List String) (fill : String → τ → Reader τ)
    (name : String) (slots : τ) : Reader τ := do
  if name ∈ names then fill name slots
  else if outline.strict then failWhole (.unknownField name names)
  else
    colon
    skipValue
    return slots

def assemble (outline : Outline) (make? : σ → Option α) (values : σ) : Reader α :=
  match make? values with
  | some a => return a
  | none => failWhole (.overflow outline.name)

/-- Reads a record from an object or a list. -/
def recordWith (outline : Outline) (row : Reader σ) (byName : Reader σ) (make? : σ → Option α) :
    Reader α := do
  let b ← valueStart
  if b = Ascii.openList then
    inList do assemble outline make? (← row)
  else if b = Ascii.openObject then
    inObject do assemble outline make? (← byName)
  else mistyped b s!"struct {outline.name}"

end Schema

def Fields.noSlots : {σ τ : Type} → Fields σ τ → τ
  | _, _, .done => ()
  | _, _, .field _ _ _ rest => (none, rest.noSlots)

/-- The values of all fields, if none is missing that must be there. -/
def Fields.collect : {σ τ : Type} → Fields σ τ → τ → Reader σ
  | _, _, .done, _ => return ()
  | _, _, .field name _ absent rest, (value?, slots) =>
    match value?.or absent with
    | some a => return (a, ← rest.collect slots)
    | none => failWhole (.missing name)

mutual

def Schema.read : {α : Type} → Schema α → Reader α
  | _, .text => Json.Reader.text
  | _, .flag => Json.Reader.flag
  | _, .word w => return w.ofInt (← integer w.least w.greatest w.name)
  | _, .optional s => Json.Reader.optional s.read
  | _, .sequence s => do
    let b ← valueStart
    if b = Ascii.openList then inList (items s.read) else mistyped b "a sequence"
  | _, .block n s => do
    let b ← valueStart
    if b = Ascii.openList then inList (Schema.blockItems s.read n n)
    else mistyped b s!"an array of length {n}"
  | _, .dictionary s => do
    let b ← valueStart
    if b = Ascii.openObject then
      inObject (members (fun name m => do
        colon
        return m.insert name (← s.read)) KeyMap.empty)
    else mistyped b "a map"
  | _, .tag tags =>
    Schema.tagged (tags.table.map (·.1)) (Schema.Tags.value tags) fun tag => do
      unit
      Schema.Tags.value tags tag
  | _, .union cases _ make _ => do
    let a ← Schema.tagged cases.tags
      (fun _ => failWhole (.mistyped .bareTag "newtype variant")) cases.readPayload
    return make a
  | _, .record outline fields _ make? _ =>
    Schema.recordWith outline (fields.readRow outline fields.names.length 0)
      (do fields.collect (← members (Schema.member outline fields.names fields.fill)
        fields.noSlots))
      make?

/-- Reads the fields that are left of a record that is written as a list. -/
def Fields.readRow : {σ τ : Type} → Fields σ τ → Outline → (total i : Nat) → Reader σ
  | _, _, .done, _, _, _ => return ()
  | _, _, .field _ s absent rest, outline, total, i => do
    if ← nextItem (i = 0) then
      let a ← s.read
      return (a, ← rest.readRow outline total (i + 1))
    else
      match absent with
      | some a => return (a, ← rest.readRow outline total (i + 1))
      | none => failWhole (.badLength i (outline.counted total))

def Fields.fill : {σ τ : Type} → Fields σ τ → String → τ → Reader τ
  | _, _, .done, _, slots => return slots
  | _, _, .field name s _ rest, wanted, slots =>
    if name = wanted then
      match slots.1 with
      | some _ => failWhole (.repeated name)
      | none => do
        colon
        return (some (← s.read), slots.2)
    else do return (slots.1, ← rest.fill wanted slots.2)

def Cases.readPayload : {σ : Type} → Cases σ → String → Reader σ
  | _, .last _ s, _ => s.read
  | _, .more tag s rest, wanted => do
    if tag = wanted then return .inl (← s.read) else return .inr (← rest.readPayload wanted)

end

def Schema.decode {α : Type} (s : Schema α) (data : Bytes) : Except Json.Error α :=
  s.read.decode data

end SyncedConfig
