import SyncedConfig.Host.Error
import SyncedConfig.Identifier

/-!
# Blinded ids

The host derives the two ids under which an account may appear on a community server. They
are passed on as they come, empty if the derivation failed, or else only if they are well
formed.
-/
namespace SyncedConfig

abbrev Blinder : Type := (sessionId serverKey : String) → Except SyncError (String × String)

/-- The two blinded ids of an account, or empty texts. -/
structure BlindedIds where
  first : String := ""
  second : String := ""
  deriving DecidableEq

namespace BlindedIds

def isEmpty (ids : BlindedIds) : Bool := ids.first = "" && ids.second = ""

def ofOutcome : Except SyncError (String × String) → BlindedIds
  | .ok (first, second) => { first, second }
  | .error _ => {}

/-- The blinded ids as they come, empty if the derivation fails. -/
def derive (blinder : Blinder) (sessionId serverKey : String) : BlindedIds :=
  ofOutcome (blinder sessionId serverKey)

/-- The blinded ids, if both are well formed. -/
def deriveChecked (blinder : Blinder) (sessionId serverKey : String) :
    Except HostError (BlindedId × BlindedId) := do
  let (first, second) ← (blinder sessionId serverKey).mapError .blinding
  let first ← (BlindedId.parse first).mapError .blinding
  let second ← (BlindedId.parse second).mapError .blinding
  return (first, second)

end BlindedIds
end SyncedConfig
