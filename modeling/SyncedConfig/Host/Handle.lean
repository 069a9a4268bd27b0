import SyncedConfig.Config.Basic
import SyncedConfig.Host.Error
import SyncedConfig.Json.Printer

/-!
# Handles

A host holds a config without knowing its kind. It may also bring a config of its own,
which the library does not look into: nothing is merged into such a one, and it is dumped
as an empty object.
-/
namespace SyncedConfig

inductive Handle
  | config (k : Kind) (c : Config k)
  | foreign (name : String)

namespace Handle

def kind? : Handle → Option Kind
  | config k _ => some k
  | foreign _ => none

def name : Handle → String
  | config k _ => k.name
  | foreign name => name

def hashes : Handle → List String
  | config _ c => c.ledger.hashes
  | foreign _ => []

def needsDump : Handle → Bool
  | config _ c => c.ledger.dirty
  | foreign _ => false

def markDumped : Handle → Handle
  | config k c => config k c.markDumped
  | h => h

def mergeBatch (messages : List Message) : Handle → Except SyncError (List String) × Handle
  | config k c =>
    let (result, c) := c.merge messages
    (result, config k c)
  | h => (.ok [], h)

def document? : Handle → Option Json
  | config _ c => some c.document
  | foreign _ => none

def document (h : Handle) : Json := h.document?.getD (.object [])

def dump (h : Handle) : String := h.document.compact

def dumpPretty (h : Handle) : String := h.document.pretty

end Handle
end SyncedConfig
