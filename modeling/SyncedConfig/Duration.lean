import SyncedConfig.Json.Basic
import SyncedConfig.Schema.Basic

/-!
# Durations

A duration is a number of seconds and the nanoseconds of another one. Nanoseconds that
make up whole seconds are carried, as long as the seconds fit a 64-bit word.
-/
namespace SyncedConfig

abbrev Duration.nanosPerSecond : Nat := 1000000000

@[ext] structure Duration where
  seconds : UInt64
  nanos : UInt32
  nanos_lt : nanos.toNat < Duration.nanosPerSecond
  deriving DecidableEq

namespace Duration

def zero : Duration := ⟨0, 0, by decide⟩

instance : Inhabited Duration := ⟨zero⟩

def isZero (d : Duration) : Bool := d.seconds = 0 && d.nanos = 0

def ofParts? (seconds : UInt64) (nanos : UInt32) : Option Duration :=
  let total := seconds.toNat + nanos.toNat / nanosPerSecond
  if total < UInt64.size then
    some ⟨UInt64.ofNat total, UInt32.ofNat (nanos.toNat % nanosPerSecond), by
      have := Nat.mod_lt nanos.toNat (show 0 < nanosPerSecond by decide)
      simp only [UInt32.toNat_ofNat']
      omega⟩
  else none

theorem ofParts?_self (d : Duration) : ofParts? d.seconds d.nanos = some d := by
  have hdiv := Nat.div_eq_of_lt d.nanos_lt
  have hmod := Nat.mod_eq_of_lt d.nanos_lt
  have fits : d.seconds.toNat + d.nanos.toNat / nanosPerSecond < UInt64.size := by
    rw [hdiv]
    exact d.seconds.toNat_lt_size
  have seconds : UInt64.ofNat (d.seconds.toNat + d.nanos.toNat / nanosPerSecond) = d.seconds := by
    rw [hdiv]
    simp
  have nanos : UInt32.ofNat (d.nanos.toNat % nanosPerSecond) = d.nanos := by
    rw [hmod]
    simp
  exact (if_pos fits).trans (congrArg some (Duration.ext seconds nanos))

def schema : Schema Duration :=
  .record { name := "Duration", strict := true }
    (.field "secs" (.word .uint64) none <| .field "nanos" (.word .uint32) none .done)
    (fun d => (d.seconds, d.nanos, ()))
    (fun (seconds, nanos, ()) => ofParts? seconds nanos)
    ofParts?_self

/-- A duration as whole seconds. -/
def document (d : Duration) : Json := .integer d.seconds.toNat

end Duration

/-- A duration as whole seconds, or null for none. -/
def Json.ofDuration? : Option Duration → Json
  | none => .null
  | some d => d.document

end SyncedConfig
