import SyncedConfig.Error

/-!
# Errors towards a host

What a host learns when a call fails. Its buffer receives the text of the cause where a
config is the cause, and the whole message otherwise.
-/
namespace SyncedConfig

inductive HostError
  | merge (cause : SyncError)
  | blinding (cause : SyncError)
  | serialize (cause : Json.Error)
  /-- A text for a host that ends texts with a zero octet contained one. -/
  | interiorNul

namespace HostError

def message : HostError → String
  | merge cause => "merge rejected: " ++ cause.message
  | blinding cause => "blinded id derivation failed: " ++ cause.message
  | serialize cause => "json rendering failed: " ++ cause.message
  | interiorNul => "text contains an interior nul byte"

/-- The text for the buffer of a host. -/
def text : HostError → String
  | merge cause | blinding cause => cause.message
  | e => e.message

def source? : HostError → Option String
  | merge cause | blinding cause => some cause.message
  | serialize cause => some cause.message
  | interiorNul => none

end HostError

inductive Failure
  | config (error : SyncError)
  | host (error : HostError)
  | json (error : Json.Error)

namespace Failure

def message : Failure → String
  | config e => e.message
  | host e => e.message
  | json e => e.message

def source? : Failure → Option String
  | host e => e.source?
  | _ => none

end Failure
end SyncedConfig
