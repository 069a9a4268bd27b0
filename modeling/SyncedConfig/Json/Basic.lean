import SyncedConfig.Bytes.Base64

/-!
# Documents

A document is a tree of values. The members of an object keep the order in which they
were put, so that equal documents are written alike.
-/
namespace SyncedConfig

inductive Json
  | null
  | bool (b : Bool)
  | integer (n : Int)
  | float (x : Float)
  | text (s : String)
  | list (items : List Json)
  | object (members : List (String × Json))
  deriving Inhabited

namespace Json

def ofText? : Option String → Json
  | none => null
  | some s => text s

def ofBool? : Option Bool → Json
  | none => null
  | some b => bool b

def ofInt64? : Option Int64 → Json
  | none => null
  | some n => integer n.toInt

/-- Octets, as Base64 text. -/
def ofBytes (data : Bytes) : Json := text (String.ofList (Base64.encode data))

/-- Puts a member: in place of the one with its name, or else at the end. -/
def put (name : String) (value : Json) : List (String × Json) → List (String × Json)
  | [] => [(name, value)]
  | (n, v) :: rest => if n = name then (n, value) :: rest else (n, v) :: put name value rest

end Json
end SyncedConfig
