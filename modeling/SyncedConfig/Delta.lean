import SyncedConfig.Schema.Basic

/-!
# Deltas of collections

A delta puts records under their keys and then erases keys, so that a key in both ends up
erased.
-/
namespace SyncedConfig

open Std

/-- A change of a collection: records to put and keys to erase. -/
structure Delta (κ α : Type) where
  set : List α := []
  erase : List κ := []
  deriving DecidableEq, Inhabited

namespace Delta

variable {κ α : Type}

def schema (record : Schema α) (key : Schema κ) : Schema (Delta κ α) :=
  .plain "CollectionDelta"
    (.field "set" (.sequence record) (some []) <|
      .field "erase" (.sequence key) (some []) .done)
    (fun d => (d.set, d.erase, ()))
    (fun (set, erase, ()) => { set, erase })
    (fun _ => rfl)

/-- Applies a delta to a map in which each record has its own key. -/
def apply [Ord κ] [TransOrd κ] (key : α → κ) (d : Delta κ α) (m : KeyMap κ α) : KeyMap κ α :=
  d.erase.foldl KeyMap.erase (d.set.foldl (fun m a => m.insert (key a) a) m)

end Delta
end SyncedConfig
