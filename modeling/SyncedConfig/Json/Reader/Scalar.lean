import SyncedConfig.Json.Reader.Number
import SyncedConfig.Json.Reader.Text

/-!
# Reading scalars

A scalar of the wrong sort is read to its end before it is refused, so that a malformed one
is reported as malformed. Brackets of the wrong sort are refused at once.
-/
namespace SyncedConfig.Json.Reader

variable {α : Type}

/-- Reads what stands in the place of another value. -/
def found (b : UInt8) : Reader Found := do
  if b = Ascii.octet 'n' then
    wordNull
    return .null
  else if b = Ascii.octet 't' then
    wordTrue
    return .bool true
  else if b = Ascii.octet 'f' then
    wordFalse
    return .bool false
  else if b = Ascii.minus || Ascii.isDigit b then return (← number).found
  else if b = Ascii.quote then return .text (← textToken)
  else if b = Ascii.openList then return .list
  else if b = Ascii.openObject then return .object
  else failNext .valueExpected

/-- Refuses the value that starts with `b` and comes next. -/
def mistyped (b : UInt8) (expected : String) : Reader α := do
  fail (.mistyped (← found b) expected)

def text : Reader String := do
  let b ← valueStart
  if b = Ascii.quote then textToken else mistyped b "a string"

def flag : Reader Bool := do
  let b ← valueStart
  if b = Ascii.octet 't' then
    wordTrue
    return true
  else if b = Ascii.octet 'f' then
    wordFalse
    return false
  else mistyped b "a boolean"

def unit : Reader Unit := do
  let b ← valueStart
  if b = Ascii.octet 'n' then wordNull else mistyped b "unit"

def integer (least greatest : Int) (expected : String) : Reader Int := do
  let b ← valueStart
  if b = Ascii.minus || Ascii.isDigit b then
    match ← number with
    | .float x => fail (.mistyped (.float x) expected)
    | .integer n =>
      if least ≤ n ∧ n ≤ greatest then return n else fail (.outOfRange n expected)
  else mistyped b expected

def optional (reader : Reader α) : Reader (Option α) := do
  skipBlanks
  if (← peek?) = some (Ascii.octet 'n') then
    wordNull
    return none
  else return some (← reader)

end SyncedConfig.Json.Reader
