import SyncedConfig.Json.Basic
import SyncedConfig.Json.Reader.Brackets
import SyncedConfig.Json.Reader.Scalar

/-!
# Reading documents

Any document can be read whose brackets nest no deeper than a limit. A member that occurs
again takes the place of the earlier one.
-/
namespace SyncedConfig.Json

namespace Reader

/-- How deep brackets may nest in a document. -/
def nestingLimit : Nat := 127

/-- Reads a document, given how to read those inside its brackets, if there may be any. -/
def documentWith (inner? : Option (Reader Json)) : Reader Json := do
  let b ← valueStart
  if b = Ascii.octet 'n' then
    wordNull
    return .null
  else if b = Ascii.octet 't' then
    wordTrue
    return .bool true
  else if b = Ascii.octet 'f' then
    wordFalse
    return .bool false
  else if b = Ascii.quote then return .text (← textToken)
  else if b = Ascii.minus || Ascii.isDigit b then
    match ← number with
    | .integer n => return .integer n
    | .float x => return .float x
  else if b = Ascii.openList then
    match inner? with
    | none => failNext .tooDeep
    | some inner => return .list (← inList (items inner))
  else if b = Ascii.openObject then
    match inner? with
    | none => failNext .tooDeep
    | some inner =>
      let member (name : String) (ms : List (String × Json)) : Reader (List (String × Json)) := do
        colon
        return Json.put name (← inner) ms
      return .object (← inObject (members member []))
  else failNext .valueExpected

/-- Reads a document whose brackets nest at most so deep. -/
def document : Nat → Reader Json
  | 0 => documentWith none
  | depth + 1 => documentWith (some (document depth))

end Reader

def parse (data : Bytes) : Except Error Json :=
  (Reader.document Reader.nestingLimit).decode data

end SyncedConfig.Json
