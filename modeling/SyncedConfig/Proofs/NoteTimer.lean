import SyncedConfig.Proofs.Dump.Numbers
import SyncedConfig.Proofs.Dump.Shown
import SyncedConfig.Proofs.Snapshot

/-!
# The timer of notes

Whoever sets the timer of the conversation with oneself to no length clears it. A snapshot, though,
is taken over as it is. So a timer of no length is kept exactly as long as the last accepted
snapshot has one and nobody has set the timer since. Where there is no timer the dump shows null.
-/
namespace SyncedConfig

namespace Duration

theorem isZero_iff {d : Duration} : d.isZero ↔ d = zero := by
  simp [isZero, zero, Duration.ext_iff]

/-- What is carried is at least a second, so that only nothing at all makes up no length. -/
theorem ofParts?_eq_zero_iff {seconds : UInt64} {nanos : UInt32} :
    ofParts? seconds nanos = some zero ↔ seconds = 0 ∧ nanos = 0 := by
  constructor
  · intro h
    simp only [ofParts?] at h
    split at h
    next hfits =>
      obtain ⟨hseconds, hnanos⟩ := Duration.ext_iff.1 (Option.some.inj h)
      have htotal := congrArg UInt64.toNat hseconds
      have hrest := congrArg UInt32.toNat hnanos
      have hsmall := nanos.toNat_lt
      simp only [zero, nanosPerSecond, UInt64.size, UInt64.toNat_ofNat', UInt32.toNat_ofNat',
        UInt64.toNat_zero, UInt32.toNat_zero] at hfits htotal hrest
      constructor
      · refine UInt64.toNat_inj.1 ?_
        rw [UInt64.toNat_zero]
        omega
      · refine UInt32.toNat_inj.1 ?_
        rw [UInt32.toNat_zero]
        omega
    next => cases h
  · rintro ⟨rfl, rfl⟩
    exact ofParts?_self zero

end Duration

namespace Field

theorem lastSet_noteExpiry_ne (edits : List (Edit .profile)) :
    noteExpiry.lastSet edits ≠ some (some Duration.zero) := by
  intro h
  obtain ⟨e, -, he⟩ := List.exists_of_findSome?_eq_some h
  cases e with
  | noteExpiry expiry =>
    have hset : (if expiry.isZero then none else some expiry) = some Duration.zero :=
      Option.some.inj he
    split at hset
    next => cases hset
    next hlength => exact hlength (Duration.isZero_iff.2 (Option.some.inj hset))
  | _ => cases he

theorem lastSet_noteExpiry_eq_none_iff {edits : List (Edit .profile)} :
    noteExpiry.lastSet edits = none ↔ ∀ expiry, .noteExpiry expiry ∉ edits := by
  rw [lastSet, List.findSome?_eq_none_iff]
  constructor
  · intro h expiry hmem
    have hset := h _ (List.mem_reverse.2 hmem)
    cases hset
  · intro h e he
    cases e with
    | noteExpiry expiry => exact absurd (List.mem_reverse.1 he) (h expiry)
    | _ => rfl

end Field

namespace Config

variable {id : String} {start : Config .profile}

/-- The snapshots that were accepted in the course of a run, each under its hash. -/
def Accepts (start : Config .profile) (actions : List (Action .profile)) (p : Profile) : Prop :=
  ∃ hash ∈ (start.run actions).ledger.hashes,
    Message.deltaUnder Profile.schema (start.along delivered actions) hash = some p

theorem accepts_of_latest? {actions : List (Action .profile)} {p : Profile}
    (h : start.latest? actions = some p) : start.Accepts actions p := by
  obtain ⟨hash, hlast, hdelta⟩ := Option.bind_eq_some_iff.1 h
  exact ⟨hash, List.mem_of_getLast? hlast, hdelta⟩

/-- A timer of no length comes from the last accepted snapshot. -/
theorem noteExpiry_eq_zero_iff (h : create .profile id = .ok start)
    (actions : List (Action .profile)) :
    Profile.noteExpiry (start.run actions).content = some .zero ↔
      (∃ p, start.latest? actions = some p ∧ Profile.noteExpiry p = some .zero) ∧
        ∀ expiry, .noteExpiry expiry ∉ start.editsSince actions := by
  have hget : Profile.noteExpiry (start.run actions).content = _ := get_run h actions .noteExpiry
  rw [hget, ← Field.lastSet_noteExpiry_eq_none_iff]
  cases hset : Field.noteExpiry.lastSet (start.editsSince actions) with
  | some expiry? =>
    have hne := Field.lastSet_noteExpiry_ne (start.editsSince actions)
    rw [hset] at hne
    refine iff_of_false (fun heq => hne (congrArg some heq)) ?_
    rintro ⟨-, hnone⟩
    cases hnone
  | none =>
    rw [Option.getD_none, and_iff_left rfl]
    cases start.latest? actions with
    | none =>
      have hblank : Field.noteExpiry.given Kind.profile.blank = none := rfl
      simp [hblank]
    | some p => exact ⟨fun heq => ⟨p, rfl, heq⟩, fun ⟨_, hp, heq⟩ => Option.some.inj hp ▸ heq⟩

/-- At the end of any run the timer has no length exactly if the last accepted snapshot has such a
timer and nobody has set the timer since; so it never has if no accepted snapshot has one. A
snapshot has one exactly if both numbers of its timer are zero. Both dumps show null exactly if
there is no timer, and else its whole seconds. -/
theorem zero_timer_only_from_snapshot (h : create .profile id = .ok start)
    (actions : List (Action .profile)) :
    let timer := Profile.noteExpiry (start.run actions).content
    (timer = some .zero ↔
      (∃ p, start.latest? actions = some p ∧ Profile.noteExpiry p = some .zero) ∧
        ∀ expiry, .noteExpiry expiry ∉ start.editsSince actions) ∧
    ((∀ p, start.Accepts actions p → p.noteExpiry ≠ some .zero) → timer ≠ some .zero) ∧
    (∀ seconds nanos, Duration.ofParts? seconds nanos = some .zero ↔ seconds = 0 ∧ nanos = 0) ∧
    ∃ whole, Json.parse (Utf8.ofString (Handle.config _ (start.run actions)).dump) = .ok whole ∧
      Json.parse (Utf8.ofString (Handle.config _ (start.run actions)).dumpPretty) = .ok whole ∧
      (whole.member? "nts_expiry" = some .null ↔ timer = none) ∧
      ∀ d, timer = some d → whole.member? "nts_expiry" = some (.integer d.seconds.toNat) := by
  intro timer
  have hzero := noteExpiry_eq_zero_iff h actions
  let handle := Handle.config _ (start.run actions)
  have hshown : handle.document.member? "nts_expiry" = some (.ofDuration? timer) := rfl
  refine ⟨hzero, ?_, fun _ _ => Duration.ofParts?_eq_zero_iff, _, handle.parse_dump,
    handle.parse_dumpPretty, ?_, ?_⟩
  · intro haccepts htimer
    obtain ⟨⟨p, hlatest, hp⟩, -⟩ := hzero.1 htimer
    exact haccepts p (accepts_of_latest? hlatest) hp
  · rw [hshown, Option.some.injEq]
    cases timer with
    | none => exact iff_of_true rfl rfl
    | some d => exact iff_of_false d.document_ne_null (Option.some_ne_none d)
  · intro d hd
    rw [hshown, hd]
    rfl

/-- The timer is set to no length, which clears it, and a snapshot brings one of no length. -/
theorem later_snapshot_brings_zero_timer :
    let start : Config .profile := { content := {} }
    let snapshot := Utf8.encode "\x7b\"nts_expiry\":\x7b\"secs\":0,\"nanos\":0\x7d\x7d".toList
    let actions : List (Action .profile) :=
      [.edit (.noteExpiry .zero), .merge [⟨"h", snapshot⟩], .edit (.notePriority 3)]
    create .profile "" = .ok start ∧
      start.latest? actions = some { noteExpiry := some .zero } ∧
      start.editsSince actions = [.notePriority 3] ∧
      Profile.noteExpiry (start.run actions).content = some .zero := by
  intro start snapshot actions
  have hcreate : create .profile "" = .ok start := rfl
  have hlatest : start.latest? actions = some { noteExpiry := some .zero } := by decide +kernel
  have hsince : start.editsSince actions = [.notePriority 3] := by
    have hmerge : (start.act (.edit (.noteExpiry .zero))).returned (.merge [⟨"h", snapshot⟩]) =
        ["h"] := by
      decide +kernel
    simp only [actions, editsSince, along, events, hmerge]
    rfl
  refine ⟨hcreate, hlatest, hsince, ?_⟩
  refine (zero_timer_only_from_snapshot hcreate actions).1.2 ⟨⟨_, hlatest, rfl⟩, ?_⟩
  rw [hsince]
  simp

/-- The dump shows a timer that whoever set it would have cleared. -/
theorem zero_timer_shown :
    let start : Config .profile := { content := {} }
    let snapshot := Utf8.encode "\x7b\"nts_expiry\":\x7b\"secs\":0,\"nanos\":0\x7d\x7d".toList
    let config := start.run [.merge [⟨"h", snapshot⟩]]
    create .profile "" = .ok start ∧
      Profile.noteExpiry config.content = some .zero ∧
      config.document.member? "nts_expiry" = some (.integer 0) ∧
      Profile.noteExpiry (config.run [.edit (.noteExpiry .zero)]).content = none := by
  intro start snapshot config
  have htimer : Profile.noteExpiry config.content = some .zero := by decide +kernel
  have hshown : config.document.member? "nts_expiry" =
      some (.ofDuration? (Profile.noteExpiry config.content)) := rfl
  refine ⟨rfl, htimer, ?_, rfl⟩
  rw [hshown, htimer]
  rfl

end Config
end SyncedConfig
