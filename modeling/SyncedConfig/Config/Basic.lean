import SyncedConfig.Kind
import SyncedConfig.Ledger

/-!
# Configs

A config is what it holds together with its ledger. Merging a batch of messages either
refuses it and changes nothing, or applies the changes in all new messages in order and
records their hashes.
-/
namespace SyncedConfig

structure Config (k : Kind) where
  content : k.Content
  ledger : Ledger := {}

namespace Config

variable {k : Kind}

/-- An empty config. The id is that of the group, where the kind has one. -/
def create : (k : Kind) → (id : String) → Except SyncError (Config k)
  | .profile, _ => .ok { content := {} }
  | .collection _, _ => .ok { content := {} }
  | .info, id => do
    IdKind.group.check id
    return { content := { id } }

/-- Merges a batch of messages and returns the hashes of those that were new. -/
def merge (c : Config k) (messages : List Message) :
    Except SyncError (List String) × Config k :=
  match c.ledger.readBatch k.changeSchema messages with
  | .error e => (.error e, c)
  | .ok batch =>
    let hashes := batch.map (·.1)
    (.ok hashes, ⟨(batch.map (·.2)).foldl k.apply c.content, c.ledger.record hashes⟩)

def edit (c : Config k) (f : k.Content → k.Content) : Config k :=
  ⟨f c.content, c.ledger.touch⟩

def markDumped (c : Config k) : Config k := { c with ledger := c.ledger.markDumped }

def document (c : Config k) : Json := k.document c.content

end Config
end SyncedConfig
