import SyncedConfig.Json.Fault
import SyncedConfig.Text.Quoted

/-!
# Errors of configs

Whatever can go wrong when a config is read, edited or merged.
-/
namespace SyncedConfig

inductive SyncError
  /-- A delta could not be read. -/
  | decode (error : Json.Error)
  /-- A delta could not be written. -/
  | encode (error : Json.Error)
  /-- A delta that is not empty came without a hash. -/
  | emptyHash
  | invalidId (id : String)
  | invalidKey (key : String)
  /-- The derivation of blinded ids was refused. -/
  | blinding (reason : String)

def SyncError.message : SyncError → String
  | .decode e => "delta decode failed: " ++ e.message
  | .encode e => "delta encode failed: " ++ e.message
  | .emptyHash => "delta has data but no content hash"
  | .invalidId id => "invalid session id: " ++ Text.quoted id
  | .invalidKey key => "invalid public key: " ++ Text.quoted key
  | .blinding reason => "blinding failed: " ++ reason

end SyncedConfig
