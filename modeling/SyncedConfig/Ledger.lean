import SyncedConfig.Error
import SyncedConfig.Schema.Read

/-!
# The ledger of merged messages

A ledger keeps the hashes of all messages that were merged, in the order of merging, and
whether anything changed since the last dump. A batch of messages is read as a whole
before any of it counts: empty messages and messages that are known, or came earlier in
the batch, are passed over, and the first one that has no hash or cannot be read refuses
the batch.
-/
namespace SyncedConfig

/-- A delta in transit, addressed by the hash of its content. -/
structure Message where
  hash : String
  data : Bytes
  deriving DecidableEq

/-- Reads the messages of a batch whose hashes are not known. -/
def Message.readBatch {δ : Type} (schema : Schema δ) (known : List String) :
    List Message → Except SyncError (List (String × δ))
  | [] => .ok []
  | m :: rest =>
    if m.data.isEmpty then readBatch schema known rest
    else if m.hash = "" then .error .emptyHash
    else if m.hash ∈ known then readBatch schema known rest
    else
      match schema.decode m.data with
      | .error e => .error (.decode e)
      | .ok delta => do
        let more ← readBatch schema (m.hash :: known) rest
        return (m.hash, delta) :: more

/-- The hashes of merged messages, and whether there is anything to dump. -/
structure Ledger where
  hashes : List String := []
  dirty : Bool := false
  deriving DecidableEq

namespace Ledger

def has (ledger : Ledger) (hash : String) : Bool := hash ∈ ledger.hashes

def readBatch {δ : Type} (ledger : Ledger) (schema : Schema δ) (messages : List Message) :
    Except SyncError (List (String × δ)) :=
  Message.readBatch schema ledger.hashes messages

def record (ledger : Ledger) (hashes : List String) : Ledger :=
  ⟨ledger.hashes ++ hashes, ledger.dirty || !hashes.isEmpty⟩

def touch (ledger : Ledger) : Ledger := { ledger with dirty := true }

def markDumped (ledger : Ledger) : Ledger := { ledger with dirty := false }

end Ledger
end SyncedConfig
