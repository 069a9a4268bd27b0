import SyncedConfig.Host.Blinding
import SyncedConfig.Host.Buffer
import SyncedConfig.Host.Merge

/-!
# The binary interface

A host that passes octets may have no handle, a text that is not UTF-8 or no buffer. Each
call then does as little as it can: it makes no handle, dumps the empty document, refuses
to merge or derives nothing.
-/
namespace SyncedConfig.Abi

/-- Opens a config. Only a group needs the id, which must then be well formed. -/
def openConfig (code : UInt32) (id : Bytes) : Option Handle := do
  let k ← Kind.ofCode? code
  let id := (Utf8.toText id).toOption.getD ""
  let c ← (Config.create k id).toOption
  return .config k c

def dump (handle? : Option Handle) : Bytes :=
  match handle? with
  | some h => h.terminatedDumpOrEmpty
  | none => Utf8.ofString emptyDocument ++ [0]

structure Merged where
  accepted : Bool
  buffer? : Option Bytes
  handle? : Option Handle

def mergeMessage (handle? : Option Handle) (hash data : Bytes) :
    Except String Bool × Option Handle :=
  match handle? with
  | none => (.error "null config handle", none)
  | some h =>
    match Utf8.toText hash with
    | .error defect => (.error ("hash is not valid utf-8: " ++ defect), some h)
    | .ok hash =>
      let (result, h) := h.merge ⟨hash, data⟩
      (result.mapError HostError.text, some h)

/-- Merges a message and leaves the text of an error, or an empty one, in the buffer. -/
def merge (handle? : Option Handle) (hash data : Bytes) (buffer? : Option Bytes) : Merged :=
  let (result, handle?) := mergeMessage handle? hash data
  let report := match result with
    | .ok _ => ""
    | .error text => text
  { accepted := result.toOption.getD false
    buffer? := buffer?.map fun buffer => (writeTerminated buffer report).2
    handle? }

abbrev blindedIdLength : Nat := 66

/-- What a routine of the host leaves behind: whether it took its input, and the two buffers that
it was to fill. -/
structure Filled where
  accepted : Bool
  first : Vector UInt8 blindedIdLength
  second : Vector UInt8 blindedIdLength

/-- A routine of the host that derives blinded ids from two texts, whatever else it does. -/
abbrev Routine (m : Type → Type) : Type := (sessionId serverKey : Bytes) → m Filled

/-- The blinded ids in the buffers, if the routine took its input and they are text. -/
def Filled.ids (filled : Filled) : Except SyncError (String × String) := do
  if !filled.accepted then throw (.blinding "blinding callback rejected its input")
  let first ← (Utf8.toText filled.first.toList).mapError .blinding
  let second ← (Utf8.toText filled.second.toList).mapError .blinding
  return (first, second)

/-- Two blinded ids as a host gets them: for each a buffer, unless there is none, and a length. -/
structure HandedIds where
  first? : Option Bytes := none
  firstLength : Nat := 0
  second? : Option Bytes := none
  secondLength : Nat := 0
  deriving DecidableEq

/-- Hands a text over as a buffer and its length. There is no buffer for an empty text. -/
def handOver (text : String) : Option Bytes × Nat :=
  if text = "" then (none, 0)
  else
    let octets := Utf8.ofString text
    (some octets, octets.length)

/-- Hands over two blinded ids, or neither of them if one is empty. -/
def HandedIds.ofIds (ids : BlindedIds) : HandedIds :=
  if ids.first = "" || ids.second = "" then {}
  else
    let (first?, firstLength) := handOver ids.first
    let (second?, secondLength) := handOver ids.second
    { first?, firstLength, second?, secondLength }

def Filled.handed (filled : Filled) : HandedIds := .ofIds (.ofOutcome filled.ids)

/-- Has a routine of the host derive blinded ids, and hands them over. Without a routine, or where
its input would not be text, nothing is run. -/
def createIds {m : Type → Type} [Monad m] (routine? : Option (Routine m))
    (sessionId serverKey : Bytes) : m HandedIds :=
  match routine?, Utf8.toText sessionId, Utf8.toText serverKey with
  | some routine, .ok sessionId, .ok serverKey => do
    let filled ← routine (Utf8.ofString sessionId) (Utf8.ofString serverKey)
    return filled.handed
  | _, _, _ => return {}

end SyncedConfig.Abi
