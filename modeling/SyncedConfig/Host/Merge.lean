import SyncedConfig.Host.Handle
import SyncedConfig.Text.Cut

/-!
# Merging for a host

Messages are merged one at a time. A host is told whether a message was new, and why it
was refused in a text that fits the room it has.
-/
namespace SyncedConfig

/-- The room of a host for an error text, with the zero at its end. -/
def defaultErrorRoom : Nat := 256

structure MergeReport where
  accepted : Bool
  error? : Option String
  deriving DecidableEq

namespace Handle

def merge (h : Handle) (m : Message) : Except HostError Bool × Handle :=
  match h.mergeBatch [m] with
  | (.ok accepted, h) => (.ok (!accepted.isEmpty), h)
  | (.error e, h) => (.error (.merge e), h)

/-- Merges a message and reports in a text of fewer octets than there is room for. -/
def mergeReporting (h : Handle) (m : Message) (room : Nat) : MergeReport × Handle :=
  match h.merge m with
  | (.ok accepted, h) => ({ accepted, error? := none }, h)
  | (.error e, h) =>
    let text := String.ofList (Text.cut e.text.toList (room - 1))
    ({ accepted := false, error? := some text }, h)

/-- Merges messages until one is refused, and counts those that were new. -/
def mergeEach (h : Handle) : List Message → Except HostError Nat × Handle
  | [] => (.ok 0, h)
  | m :: rest =>
    match h.merge m with
    | (.error e, h) => (.error e, h)
    | (.ok accepted, h) =>
      let (result, h) := h.mergeEach rest
      (result.map (· + accepted.toNat), h)

end Handle
end SyncedConfig
