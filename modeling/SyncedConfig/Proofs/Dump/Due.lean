import Mathlib.Data.List.DropRight
import SyncedConfig.Host.Handle
import SyncedConfig.Proofs.Batch
import SyncedConfig.Proofs.Run

/-!
# When a dump is due

Every action that changes a config makes a dump due. So while none is due, the config is what it
was at its last dump, or at its creation. An action of which nothing comes does not make a dump
due, because it leaves the whole config as it was.
-/
namespace SyncedConfig

variable {k : Kind}

namespace Action

def isDump : Action k → Bool
  | markDumped => true
  | _ => false

/-- A run up to its last dump; the empty run if there was none. -/
def upToDump (actions : List (Action k)) : List (Action k) := actions.rdropWhile fun a => !a.isDump

/-- A run goes on after its last dump without another one. -/
theorem upToDump_append (actions : List (Action k)) :
    ∃ since, upToDump actions ++ since = actions ∧ ∀ a ∈ since, a.isDump = false := by
  refine ⟨actions.rtakeWhile fun a => !a.isDump, List.rdropWhile_append_rtakeWhile, ?_⟩
  intro a ha
  simpa using List.mem_rtakeWhile_imp ha

theorem upToDump_cases (actions : List (Action k)) :
    upToDump actions = [] ∨ ∃ before, upToDump actions = before ++ [markDumped] := by
  by_cases hnil : upToDump actions = []
  · exact .inl hnil
  · have hlast : ((upToDump actions).getLast hnil).isDump = true := by
      simpa [upToDump] using List.rdropWhile_last_not _ actions hnil
    right
    refine ⟨(upToDump actions).dropLast, ?_⟩
    cases hget : (upToDump actions).getLast hnil with
    | markDumped => rw [← hget, List.dropLast_append_getLast]
    | edit e => simp [hget, isDump] at hlast
    | merge batch => simp [hget, isDump] at hlast

end Action

namespace Config

/-- Nothing comes of an action: a merge is refused or accepts no message, or there is no entry to
erase. -/
def Fruitless : {k : Kind} → Config k → Action k → Prop
  | _, c, .merge batch => ∀ accepted, (c.merge batch).1 = .ok accepted → accepted = []
  | _, c, .edit (.erase key) => (c.erase key).1 = false
  | _, _, _ => False

/-- An action of which nothing comes changes nothing. -/
theorem act_of_fruitless {c : Config k} {a : Action k} (h : c.Fruitless a) : c.act a = c := by
  cases a with
  | merge batch =>
    cases hread : Message.readBatch k.changeSchema c.ledger.hashes batch with
    | error e => rw [act, merge_of_error hread]
    | ok deltas =>
      have hnone : deltas.map (·.1) = [] := h _ (by rw [merge_of_ok hread])
      rw [act, merge_of_ok hread, List.map_eq_nil_iff.1 hnone, absorb_nil]
  | edit e =>
    cases e with
    | erase key =>
      simp only [Fruitless, erase] at h
      simp only [act, perform, erase]
      split at h
      next => cases h
      next habsent => rw [if_neg habsent]
    | _ => exact False.elim h
  | markDumped => exact False.elim h

/-- Any other action than a dump changes nothing or makes a dump due. -/
theorem act_eq_or_dirty (c : Config k) {a : Action k} (h : a.isDump = false) :
    c.act a = c ∨ (c.act a).ledger.dirty = true := by
  cases a with
  | markDumped => cases h
  | merge batch =>
    cases hread : Message.readBatch k.changeSchema c.ledger.hashes batch with
    | error e =>
      left
      rw [act, merge_of_error hread]
    | ok deltas =>
      rw [act, merge_of_ok hread]
      by_cases hdeltas : deltas = []
      · left
        rw [hdeltas, absorb_nil]
      · right
        simp [absorb, Ledger.record, hdeltas]
  | edit e =>
    cases e with
    | erase key =>
      simp only [act, perform, erase]
      split
      · exact .inr rfl
      · exact .inl rfl
    | _ => exact .inr rfl

/-- Without a dump a run changes nothing in the end or leaves a dump due. -/
theorem run_eq_or_dirty (c : Config k) {actions : List (Action k)}
    (h : ∀ a ∈ actions, a.isDump = false) :
    c.run actions = c ∨ (c.run actions).ledger.dirty = true := by
  induction actions generalizing c with
  | nil => exact .inl rfl
  | cons a rest ih =>
    obtain ⟨ha, hrest⟩ := List.forall_mem_cons.1 h
    rw [run_cons]
    by_cases hdirty : ((c.act a).run rest).ledger.dirty = true
    · exact .inr hdirty
    · have hsame : (c.act a).run rest = c.act a := (ih (c.act a) hrest).resolve_right hdirty
      rw [hsame] at hdirty ⊢
      exact .inl ((act_eq_or_dirty c ha).resolve_right hdirty)

/-- No dump is due when a config has just been created or dumped. -/
theorem dirty_upToDump {start : Config k} (h : start.ledger.dirty = false)
    (actions : List (Action k)) : (start.run (Action.upToDump actions)).ledger.dirty = false := by
  rcases Action.upToDump_cases actions with hnil | ⟨before, hbefore⟩
  · rw [hnil]
    exact h
  · rw [hbefore, run_append]
    rfl

/-- At the end of any run, if no dump is due, a config has the content, the hashes and both forms
of the dump that it had when it was last dumped, or created if it never was. Neither was a dump due
then. An action of which nothing comes leaves the config, and so whether a dump is due, as it was. -/
theorem flag_hides_no_change {id : String} {start : Config k} (h : create k id = .ok start)
    (actions : List (Action k)) :
    let c := start.run actions
    let dumped := start.run (Action.upToDump actions)
    (Handle.config k dumped).needsDump = false ∧
    ((Handle.config k c).needsDump = false →
      c.content = dumped.content ∧
      (Handle.config k c).hashes = (Handle.config k dumped).hashes ∧
      (Handle.config k c).dump = (Handle.config k dumped).dump ∧
      (Handle.config k c).dumpPretty = (Handle.config k dumped).dumpPretty) ∧
    ∀ a, c.Fruitless a → c.act a = c := by
  intro c dumped
  have hclean : start.ledger.dirty = false := by rw [ledger_of_create h]
  refine ⟨dirty_upToDump hclean actions, ?_, fun a ha => act_of_fruitless ha⟩
  intro hdue
  obtain ⟨since, hsplit, hsince⟩ := Action.upToDump_append actions
  have hrun : c = dumped.run since := by
    rw [← run_append, hsplit]
  have hsame : c = dumped := by
    rw [hrun] at hdue ⊢
    apply (run_eq_or_dirty dumped hsince).resolve_right
    exact ne_true_of_eq_false hdue
  rw [hsame]
  exact ⟨rfl, rfl, rfl, rfl⟩

theorem profile_dump_not_due :
    let start : Config .profile := { content := {} }
    let actions : List (Action .profile) :=
      [.edit (.name "a"), .markDumped, .merge [⟨"h", [0x21]⟩], .merge [⟨"", []⟩]]
    let dumped := start.run (Action.upToDump actions)
    create .profile "" = .ok start ∧ Action.upToDump actions = [.edit (.name "a"), .markDumped] ∧
      (Handle.config _ (start.run actions)).needsDump = false ∧
      (start.run actions).content = dumped.content := by
  intro start actions dumped
  have hcreate : create .profile "" = .ok start := rfl
  have hdue : (Handle.config _ (start.run actions)).needsDump = false := rfl
  exact ⟨hcreate, rfl, hdue, ((flag_hides_no_change hcreate actions).2.1 hdue).1⟩

end Config
end SyncedConfig
