import SyncedConfig.Json.Reader.Text

/-!
# Reading lists and objects

Elements and members are read one by one up to the closing bracket. Brackets give a place
to a fault that has none: the place that is reached when the reader, in spite of the fault,
tries to leave the brackets.
-/
namespace SyncedConfig.Json.Reader

variable {α σ : Type}

/-- What is left of the data after trying to leave a list. -/
def leaveList (input : Bytes) : Bytes :=
  match dropBlanks input with
  | b :: rest =>
    if b = Ascii.closeList then rest
    else if b = Ascii.comma then dropBlanks rest
    else b :: rest
  | [] => []

def leaveObject (input : Bytes) : Bytes :=
  match dropBlanks input with
  | b :: rest => if b = Ascii.closeObject then rest else b :: rest
  | [] => []

/-- Gives a place to a fault that has none. -/
def settle (leave : Bytes → Bytes) (body : Reader α) : Reader α := fun input =>
  match body input with
  | .error (.floating cause rest) => .error (.placed cause (leave rest).length)
  | result => result

def endList : Reader Unit := do
  skipBlanks
  match ← peek? with
  | none => failNext .endInList
  | some b =>
    if b = Ascii.closeList then advance
    else if b = Ascii.comma then do
      advance
      skipBlanks
      if (← peek?) = some Ascii.closeList then failNext .trailingComma
      else failNext .trailingCharacters
    else failNext .trailingCharacters

def endObject : Reader Unit := do
  skipBlanks
  match ← peek? with
  | none => failNext .endInObject
  | some b =>
    if b = Ascii.closeObject then advance
    else if b = Ascii.comma then failNext .trailingComma
    else failNext .trailingCharacters

/-- Reads what stands in a list whose opening bracket comes next. -/
def inList (body : Reader α) : Reader α := do
  advance
  let a ← settle leaveList body
  endList
  return a

def inObject (body : Reader α) : Reader α := do
  advance
  let a ← settle leaveObject body
  endObject
  return a

/-- Goes to the next element, if there is one. -/
def nextItem (isFirst : Bool) : Reader Bool := do
  skipBlanks
  match ← peek? with
  | none => failNext .endInList
  | some b =>
    if b = Ascii.closeList then return false
    else if isFirst then return true
    else if b = Ascii.comma then do
      advance
      skipBlanks
      match ← peek? with
      | none => failNext .endInValue
      | some b => if b = Ascii.closeList then failNext .trailingComma else return true
    else failNext .listEndExpected

/-- Goes to the quote before the name of the next member, if there is one. -/
def nextMember (isFirst : Bool) : Reader Bool := do
  skipBlanks
  match ← peek? with
  | none => failNext .endInObject
  | some b =>
    if b = Ascii.closeObject then return false
    else if isFirst then
      if b = Ascii.quote then return true else failNext .nameExpected
    else if b = Ascii.comma then do
      advance
      skipBlanks
      match ← peek? with
      | none => failNext .endInValue
      | some b =>
        if b = Ascii.quote then return true
        else if b = Ascii.closeObject then failNext .trailingComma
        else failNext .nameExpected
    else failNext .objectEndExpected

def colon : Reader Unit := do
  skipBlanks
  match ← peek? with
  | none => failNext .endInObject
  | some b => if b = Ascii.colon then advance else failNext .colonExpected

def itemsUpTo (item : Reader α) : Nat → Bool → Reader (List α)
  | 0, _ => failNext .endInList
  | n + 1, isFirst => do
    if ← nextItem isFirst then
      let a ← item
      let rest ← itemsUpTo item n false
      return a :: rest
    else return []

/-- Reads the elements of a list, of which there are fewer than octets left. -/
def items (item : Reader α) : Reader (List α) := fun input =>
  itemsUpTo item input.length true input

def membersUpTo (member : String → σ → Reader σ) : Nat → Bool → σ → Reader σ
  | 0, _, _ => failNext .endInObject
  | n + 1, isFirst, state => do
    if ← nextMember isFirst then
      let name ← textToken
      let state ← member name state
      membersUpTo member n false state
    else return state

/-- Reads the members of an object into a state, of which there are fewer than octets left. -/
def members (member : String → σ → Reader σ) (state : σ) : Reader σ := fun input =>
  membersUpTo member input.length true state input

end SyncedConfig.Json.Reader
