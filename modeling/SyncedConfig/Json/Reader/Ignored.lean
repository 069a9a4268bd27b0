import SyncedConfig.Json.Reader.Text

/-!
# Skipping a value

A value that nobody asks for is passed over octet by octet, with the open brackets on a
stack, so that it may nest to any depth. It must be well formed, but its numbers may be of
any size, its escapes need not pair up and its texts need not be UTF-8.
-/
namespace SyncedConfig.Json.Reader

inductive Bracket
  | list
  | object

/-- How far into a number the reading has come. -/
inductive NumberSpot
  | sign
  | zero
  | whole
  | point
  | fraction
  | exponent
  | exponentSign
  | exponentDigits

/-- What must come next in a skipped value. -/
inductive Spot
  /-- A value. -/
  | value
  /-- The first element or member, or a closing bracket. -/
  | opened
  /-- A comma or a closing bracket. -/
  | ended
  /-- The name of a member. -/
  | name
  | colon
  /-- The letters that complete a word. -/
  | word (letters : Bytes)
  | text (isName : Bool)
  | escape (isName : Bool)
  | digits (isName : Bool) (seen : Bytes)
  | number (spot : NumberSpot)

/-- What an octet does to a skipped value. -/
inductive Move
  /-- The value goes on. -/
  | next (spot : Spot) (stack : List Bracket)
  /-- The octet is the last one of the value. -/
  | last
  /-- The value ended before the octet. -/
  | over
  /-- The octet is at fault. -/
  | wrong (cause : Cause)
  /-- The place before the octet is at fault. -/
  | wrongBefore (cause : Cause)

def complete : List Bracket → Move
  | [] => .last
  | stack => .next .ended stack

def stepValue (stack : List Bracket) (b : UInt8) : Move :=
  if isBlank b then .next .value stack
  else if b = Ascii.octet 'n' then .next (.word [0x75, 0x6c, 0x6c]) stack
  else if b = Ascii.octet 't' then .next (.word [0x72, 0x75, 0x65]) stack
  else if b = Ascii.octet 'f' then .next (.word [0x61, 0x6c, 0x73, 0x65]) stack
  else if b = Ascii.minus then .next (.number .sign) stack
  else if b = 0x30 then .next (.number .zero) stack
  else if Ascii.isDigit b then .next (.number .whole) stack
  else if b = Ascii.quote then .next (.text false) stack
  else if b = Ascii.openList then .next .opened (.list :: stack)
  else if b = Ascii.openObject then .next .opened (.object :: stack)
  else .wrong .valueExpected

def stepName (stack : List Bracket) (b : UInt8) : Move :=
  if isBlank b then .next .name stack
  else if b = Ascii.quote then .next (.text true) stack
  else .wrong .nameExpected

def stepOpened (stack : List Bracket) (b : UInt8) : Move :=
  if isBlank b then .next .opened stack
  else
    match stack with
    | .list :: outer => if b = Ascii.closeList then complete outer else stepValue stack b
    | .object :: outer => if b = Ascii.closeObject then complete outer else stepName stack b
    | [] => .over

def stepEnded (stack : List Bracket) (b : UInt8) : Move :=
  match stack with
  | [] => .over
  | .list :: outer =>
    if isBlank b then .next .ended stack
    else if b = Ascii.comma then .next .value stack
    else if b = Ascii.closeList then complete outer
    else .wrong .listEndExpected
  | .object :: outer =>
    if isBlank b then .next .ended stack
    else if b = Ascii.comma then .next .name stack
    else if b = Ascii.closeObject then complete outer
    else .wrong .objectEndExpected

/-- The spot in a number that an octet leads to, if the octet belongs to the number. -/
def NumberSpot.step? (spot : NumberSpot) (b : UInt8) : Option NumberSpot :=
  let isExponent := b = Ascii.octet 'e' || b = Ascii.octet 'E'
  match spot with
  | .sign => if b = 0x30 then some .zero else if Ascii.isDigit b then some .whole else none
  | .zero =>
    if b = Ascii.point then some .point else if isExponent then some .exponent else none
  | .whole =>
    if Ascii.isDigit b then some .whole
    else if b = Ascii.point then some .point else if isExponent then some .exponent else none
  | .point => if Ascii.isDigit b then some .fraction else none
  | .fraction =>
    if Ascii.isDigit b then some .fraction else if isExponent then some .exponent else none
  | .exponent =>
    if b = Ascii.plus || b = Ascii.minus then some .exponentSign
    else if Ascii.isDigit b then some .exponentDigits else none
  | .exponentSign | .exponentDigits => if Ascii.isDigit b then some .exponentDigits else none

def NumberSpot.isComplete : NumberSpot → Bool
  | .zero | .whole | .fraction | .exponentDigits => true
  | .sign | .point | .exponent | .exponentSign => false

def stepNumber (spot : NumberSpot) (stack : List Bracket) (b : UInt8) : Move :=
  match spot.step? b with
  | some next => .next (.number next) stack
  | none =>
    match spot with
    | .zero => if Ascii.isDigit b then .wrong .badNumber else stepEnded stack b
    | spot => if spot.isComplete then stepEnded stack b else .wrong .badNumber

def stepText (isName : Bool) (stack : List Bracket) (b : UInt8) : Move :=
  if b = Ascii.quote then if isName then .next .colon stack else complete stack
  else if b = Ascii.backslash then .next (.escape isName) stack
  else if Ascii.isControl b then .wrongBefore .controlCharacter
  else .next (.text isName) stack

def step (spot : Spot) (stack : List Bracket) (b : UInt8) : Move :=
  match spot with
  | .value => stepValue stack b
  | .opened => stepOpened stack b
  | .ended => stepEnded stack b
  | .name => stepName stack b
  | .colon =>
    if isBlank b then .next .colon stack
    else if b = Ascii.colon then .next .value stack
    else .wrong .colonExpected
  | .word [] => stepEnded stack b
  | .word (letter :: letters) =>
    if b = letter then if letters.isEmpty then complete stack else .next (.word letters) stack
    else .wrong .wordExpected
  | .text isName => stepText isName stack b
  | .escape isName =>
    if b = Ascii.octet 'u' then .next (.digits isName []) stack
    else if (unescape? b).isSome then .next (.text isName) stack
    else .wrong .badEscape
  | .digits isName seen =>
    if seen.length < 3 then .next (.digits isName (seen ++ [b])) stack
    else if (hexNumber? (seen ++ [b])).isSome then .next (.text isName) stack
    else .wrong .badEscape
  | .number spot => stepNumber spot stack b

/-- What is wrong if the data ends behind a complete value, where brackets are open. -/
def endBehind : List Bracket → Option Cause
  | [] => none
  | .list :: _ => some .endInList
  | .object :: _ => some .endInObject

/-- What is wrong if the data ends here. -/
def endCause? (spot : Spot) (stack : List Bracket) : Option Cause :=
  match spot with
  | .value | .word _ => some .endInValue
  | .opened | .ended => endBehind stack
  | .name | .colon => some .endInObject
  | .text _ | .escape _ | .digits _ _ => some .endInText
  | .number spot => if spot.isComplete then endBehind stack else some .badNumber

def skipFrom : Spot → List Bracket → Bytes → Except Fault (Unit × Bytes)
  | spot, stack, [] =>
    match endCause? spot stack with
    | some cause => .error (.placed cause 0)
    | none => .ok ((), [])
  | spot, stack, b :: rest =>
    match step spot stack b with
    | .next spot stack => skipFrom spot stack rest
    | .last => .ok ((), rest)
    | .over => .ok ((), b :: rest)
    | .wrong cause => .error (.placed cause rest.length)
    | .wrongBefore cause => .error (.placed cause (rest.length + 1))

/-- Passes over one value and the blanks before it. -/
def skipValue : Reader Unit := skipFrom .value []

end SyncedConfig.Json.Reader
