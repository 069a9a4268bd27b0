import SyncedConfig.Duration
import SyncedConfig.Proofs.Spelling.Gap
import SyncedConfig.Proofs.Spelling.Written

/-!
# Numbers are read as they are written

A delta has integers of two widths, and durations, of which the whole seconds count. A number that
fits is read as itself. One that does not fit is refused, whatever its size, and never brought into
the range.
-/
namespace SyncedConfig

open Json (IsList IsObject Opens)
open Json.Reader

def Duration.wholeSeconds (seconds : UInt64) (nanos : UInt32) : Nat :=
  seconds.toNat + nanos.toNat / nanosPerSecond

inductive NumberSort
  | int32
  | int64
  | duration

namespace NumberSort

abbrev Value : NumberSort → Type
  | int32 => Int32
  | int64 => Int64
  | duration => Duration

instance : (n : NumberSort) → Inhabited n.Value
  | int32 => inferInstanceAs (Inhabited Int32)
  | int64 => inferInstanceAs (Inhabited Int64)
  | duration => inferInstanceAs (Inhabited Duration)

def schema : (n : NumberSort) → Schema n.Value
  | int32 => .word .int32
  | int64 => .word .int64
  | duration => Duration.schema

def shown : (n : NumberSort) → n.Value → Int
  | int32, x => x.toInt
  | int64, x => x.toInt
  | duration, d => d.seconds.toNat

def Fits : NumberSort → Int → Prop
  | int32, z => -0x80000000 ≤ z ∧ z ≤ 0x7fffffff
  | int64, z => -0x8000000000000000 ≤ z ∧ z ≤ 0x7fffffffffffffff
  | duration, z => 0 ≤ z ∧ z ≤ 0xffffffffffffffff

/-- The digits of an integer, with a sign if it is negative. -/
def digits (z : Int) : Bytes := Utf8.encode (Decimal.ofInt z)

/-- The octets write a number: an integer by its digits, and the seconds of a duration by its parts,
of which the nanoseconds may make up whole seconds. -/
inductive Writes : NumberSort → Int → Bytes → Prop
  | int32 (z : Int) : Writes .int32 z (digits z)
  | int64 (z : Int) : Writes .int64 z (digits z)
  | object (seconds : UInt64) (nanos : UInt32) {members : List (String × Bytes)} {octets : Bytes}
      (hmembers : members.Perm [("secs", digits seconds.toNat), ("nanos", digits nanos.toNat)])
      (hobject : IsObject members octets) :
      Writes .duration (Duration.wholeSeconds seconds nanos) octets
  | list (seconds : UInt64) (nanos : UInt32) {octets : Bytes}
      (hlist : IsList [digits seconds.toNat, digits nanos.toNat] octets) :
      Writes .duration (Duration.wholeSeconds seconds nanos) octets

variable {n : NumberSort} {z : Int} {octets : Bytes}

theorem Writes.opens (h : n.Writes z octets) :
    Opens octets ∧ octets.head? ≠ some (Ascii.octet 'n') := by
  cases h with
  | int32 | int64 => exact ⟨Json.opens_integer z, Json.head?_integer_ne z⟩
  | object seconds nanos hmembers hobject =>
    refine ⟨Json.opens_of_head? hobject.head? (by decide), ?_⟩
    rw [hobject.head?]
    decide
  | list seconds nanos hlist =>
    refine ⟨Json.opens_of_head? hlist.head? (by decide), ?_⟩
    rw [hlist.head?]
    decide

theorem reads_word {α : Type} {w : Word α} (hw : (Schema.word w).WellFormed) (hleast : w.least ≤ z)
    (hgreatest : z ≤ w.greatest) :
    ∃ x, ReadsItem (Schema.word w).read x (digits z) ∧ w.toInt x = z := by
  have hz := w.toInt_ofInt z hleast hgreatest
  have hspells : (Schema.word w).Spells (w.ofInt z) (digits z) := by
    rw [Schema.Spells, hz, digits]
  exact ⟨w.ofInt z, Schema.accepts_word hw.1 hw.2 _ _ hspells, hz⟩

theorem refuses_word {α : Type} {w : Word α} (h : z < w.least ∨ w.greatest < z) :
    Refuses (Schema.word w).read (digits z) := by
  rw [Schema.read]
  exact (refuses_integer h w.name).bind _

variable {seconds : UInt64} {nanos : UInt32}

theorem readsItem_seconds (seconds : UInt64) :
    ReadsItem (Schema.word Word.uint64).read seconds (digits seconds.toNat) := by
  refine Schema.accepts_word (by decide) (by decide) seconds _ ?_
  rw [Schema.Spells]
  rfl

theorem readsItem_nanos (nanos : UInt32) :
    ReadsItem (Schema.word Word.uint32).read nanos (digits nanos.toNat) := by
  refine Schema.accepts_word (by decide) (by decide) nanos _ ?_
  rw [Schema.Spells]
  rfl

abbrev durationFields : Fields (UInt64 × UInt32 × Unit) (Option UInt64 × Option UInt32 × Unit) :=
  .field "secs" (.word .uint64) none <| .field "nanos" (.word .uint32) none .done

theorem durationFields_named {members : List (String × Bytes)} (outline : Outline)
    (h : members.Perm [("secs", digits seconds.toNat), ("nanos", digits nanos.toNat)]) :
    durationFields.Named outline (durationFields.ReadsAs (seconds, nanos, ()))
      (seconds, nanos, ()) members := by
  refine Fields.named_of_perm outline (by decide) _ (h.map _) fun m hm => ?_
  rcases List.mem_cons.1 (h.subset hm) with rfl | hm
  · exact readsItem_seconds seconds
  · rw [List.mem_singleton.1 hm]
    exact readsItem_nanos nanos

theorem durationFields_readsInOrder :
    durationFields.ReadsInOrder (seconds, nanos, ())
      [digits seconds.toNat, digits nanos.toNat] :=
  ⟨readsItem_seconds seconds, readsItem_nanos nanos, rfl⟩

/-- The nanoseconds are carried as long as the seconds fit. -/
theorem ofParts?_of_fits (h : Duration.wholeSeconds seconds nanos < UInt64.size) :
    ∃ d, Duration.ofParts? seconds nanos = some d ∧
      d.seconds.toNat = Duration.wholeSeconds seconds nanos := by
  refine ⟨_, if_pos h, ?_⟩
  exact UInt64.toNat_ofNat_of_lt h

theorem ofParts?_of_not_fits (h : ¬ Duration.wholeSeconds seconds nanos < UInt64.size) :
    Duration.ofParts? seconds nanos = none := if_neg h

theorem fits_duration_iff {n : Nat} : Fits .duration n ↔ n < UInt64.size := by
  have size : UInt64.size = 0x10000000000000000 := rfl
  simp only [Fits, size]
  omega

/-- A number that fits is read as a value that shows it. -/
theorem Writes.reads (h : n.Writes z octets) (hfits : n.Fits z) :
    ∃ b, ReadsItem n.schema.read b octets ∧ n.shown b = z := by
  cases h with
  | int32 => exact reads_word (by decide) hfits.1 hfits.2
  | int64 => exact reads_word (by decide) hfits.1 hfits.2
  | object seconds nanos hmembers hobject =>
    obtain ⟨d, hd, hseconds⟩ := ofParts?_of_fits (fits_duration_iff.1 hfits)
    exact ⟨d, Schema.reads_named (by decide) hd (durationFields_named _ hmembers) hobject,
      congrArg Int.ofNat hseconds⟩
  | list seconds nanos hlist =>
    obtain ⟨d, hd, hseconds⟩ := ofParts?_of_fits (fits_duration_iff.1 hfits)
    exact ⟨d, Schema.reads_inOrder hd durationFields_readsInOrder hlist,
      congrArg Int.ofNat hseconds⟩

theorem Writes.refuses (h : n.Writes z octets) (hfits : ¬ n.Fits z) :
    Refuses n.schema.read octets := by
  have hout {least greatest : Int} (h : ¬ (least ≤ z ∧ z ≤ greatest)) :
      z < least ∨ greatest < z := by omega
  cases h with
  | int32 => exact refuses_word (hout hfits)
  | int64 => exact refuses_word (hout hfits)
  | object seconds nanos hmembers hobject =>
    have hnone := ofParts?_of_not_fits (mt fits_duration_iff.2 hfits)
    exact Schema.refuses_named (by decide) hnone (durationFields_named _ hmembers) hobject
  | list seconds nanos hlist =>
    have hnone := ofParts?_of_not_fits (mt fits_duration_iff.2 hfits)
    exact Schema.refuses_inOrder hnone durationFields_readsInOrder hlist

section gap

variable {α : Type} {s : Schema α} {make : n.Value → α} {value before behind : Bytes}
  (hs : s.WellFormed) (h : n.Writes z value) (hgap : Schema.Gap n.schema value s make octets)
  (hbefore : Blank before) (hbehind : Blank behind)
include hs h hgap hbefore hbehind

/-- What holds a number that fits is decoded with a value in its place that shows it. -/
theorem decode_of_fits (hfits : n.Fits z) :
    ∃ b, n.shown b = z ∧ s.decode (before ++ (octets ++ behind)) = .ok (make b) := by
  obtain ⟨b, hreads, hshown⟩ := h.reads hfits
  exact ⟨b, hshown, (hgap.reads hs h.opens.2 hreads).2.decode_padded hbefore hbehind⟩

theorem decode_of_not_fits (hfits : ¬ n.Fits z) :
    ∃ fault, s.decode (before ++ (octets ++ behind)) = .error fault := by
  obtain ⟨hopens, hnull⟩ := h.opens
  exact (hgap.refuses hs default hnull hopens (h.refuses hfits)).decode_padded hbefore hbehind

end gap

end NumberSort
end SyncedConfig
