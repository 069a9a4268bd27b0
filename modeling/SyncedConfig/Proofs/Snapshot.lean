import Mathlib.Data.List.DropRight
import SyncedConfig.Host.Handle
import SyncedConfig.Proofs.History

/-!
# Snapshots converge

The delta of a profile or of a group is a snapshot of all its settings, and an edit sets one of
them. So at the end of a run each setting has the value that was last set behind the last accepted
snapshot, or else the value in this snapshot, whatever happened before. The id of a group is no
setting, and no snapshot changes it.
-/
namespace SyncedConfig

variable {k : Kind}

inductive Kind.IsSingle : Kind → Prop
  | profile : IsSingle .profile
  | info : IsSingle .info

def Kind.blank : (k : Kind) → k.Change
  | profile => {}
  | collection _ => {}
  | info => {}

def Kind.groupId? : (k : Kind) → k.Content → Option String
  | info, g => some g.id
  | _, _ => none

/-- A setting of a profile or of a group. -/
inductive Field : Kind → Type
  | name : Field .profile
  | picture : Field .profile
  | blindedRequests : Field .profile
  | notePriority : Field .profile
  | noteExpiry : Field .profile
  | groupName : Field .info
  | description : Field .info
  | groupPicture : Field .info
  | expiryTimer : Field .info
  | created : Field .info
  | deleteBefore : Field .info
  | deleteAttachBefore : Field .info
  deriving DecidableEq

namespace Field

abbrev Value : {k : Kind} → Field k → Type
  | _, name | _, groupName | _, description => Option String
  | _, picture | _, groupPicture => Picture
  | _, blindedRequests => Option Bool
  | _, notePriority => Int32
  | _, noteExpiry | _, expiryTimer => Option Duration
  | _, created | _, deleteBefore | _, deleteAttachBefore => Option Int64

def given : {k : Kind} → (f : Field k) → k.Change → f.Value
  | _, name, p => p.name
  | _, picture, p => p.picture
  | _, blindedRequests, p => p.blindedRequests
  | _, notePriority, p => p.notePriority
  | _, noteExpiry, p => p.noteExpiry
  | _, groupName, d => d.name
  | _, description, d => d.description
  | _, groupPicture, d => d.picture
  | _, expiryTimer, d => d.expiryTimer
  | _, created, d => d.created
  | _, deleteBefore, d => d.deleteBefore
  | _, deleteAttachBefore, d => d.deleteAttachBefore

def get : {k : Kind} → (f : Field k) → k.Content → f.Value
  | .profile, f, p => f.given p
  | .info, f, g => f.given g.details

end Field

structure Assignment (k : Kind) where
  field : Field k
  value : field.Value

def Edit.assignment? : {k : Kind} → Edit k → Option (Assignment k)
  | _, .name text => some ⟨.name, some text⟩
  | _, .picture p => some ⟨.picture, p⟩
  | _, .blindedRequests accept => some ⟨.blindedRequests, accept⟩
  | _, .notePriority priority => some ⟨.notePriority, priority⟩
  | _, .noteExpiry expiry => some ⟨.noteExpiry, if expiry.isZero then none else some expiry⟩
  | _, .groupName text => some ⟨.groupName, some text⟩
  | _, .description text => some ⟨.description, some text⟩
  | _, .groupPicture p => some ⟨.groupPicture, p⟩
  | _, .expiryTimer timer => some ⟨.expiryTimer, some timer⟩
  | _, .created moment => some ⟨.created, some moment⟩
  | _, .deleteBefore moment => some ⟨.deleteBefore, some moment⟩
  | _, .deleteAttachBefore moment => some ⟨.deleteAttachBefore, some moment⟩
  | _, .set _ | _, .erase _ => none

theorem Config.of_create_info {id : String} {start : Config .info}
    (h : Config.create .info id = .ok start) :
    start.content = { id } ∧ IdKind.group.accepts id := by
  simp only [Config.create, IdKind.check] at h
  split at h
  next haccepts =>
    cases h
    exact ⟨rfl, haccepts⟩
  next => cases h

namespace Field

/-- The value that an edit gives to a setting, if it is this one that it sets. -/
def setBy (f : Field k) (e : Edit k) : Option f.Value :=
  match e.assignment? with
  | some a => if h : a.field = f then some (h ▸ a.value) else none
  | none => none

/-- The value that a setting is given last by some edits. -/
def lastSet (f : Field k) (edits : List (Edit k)) : Option f.Value :=
  edits.reverse.findSome? f.setBy

/-- An edit changes the setting that it sets and no other. -/
theorem get_effect (f : Field k) (e : Edit k) (content : k.Content) :
    f.get (e.effect content) = (f.setBy e).getD (f.get content) := by
  cases e <;> cases f <;> rfl

theorem get_apply (f : Field k) (content : k.Content) (change : k.Change) :
    f.get (k.apply content change) = f.given change := by
  cases f <;> rfl

theorem get_of_create {id : String} {start : Config k} (h : Config.create k id = .ok start)
    (f : Field k) : f.get start.content = f.given k.blank := by
  cases k with
  | profile =>
    cases h
    rfl
  | collection c => cases f
  | info =>
    rw [(Config.of_create_info h).1]
    cases f <;> rfl

theorem lastSet_append (f : Field k) (edits : List (Edit k)) (e : Edit k) :
    f.lastSet (edits ++ [e]) = (f.setBy e).or (f.lastSet edits) := by
  rw [lastSet, List.reverse_append, List.findSome?_append]
  simp [lastSet]

end Field

namespace Event

/-- The edits behind the last delta of a history. -/
def editsSince (history : List (Event k)) : List (Edit k) :=
  (history.rtakeWhile fun event => event.hash?.isNone).filterMap edit?

theorem editsSince_append_edit (history : List (Event k)) (e : Edit k) :
    editsSince (history ++ [edit e]) = editsSince history ++ [e] := by
  rw [editsSince, List.rtakeWhile_concat_pos _ _ _ rfl, List.filterMap_append]
  rfl

theorem editsSince_append_delta (history : List (Event k)) (hash : String) :
    editsSince (history ++ [delta hash]) = [] := by
  rw [editsSince, List.rtakeWhile_concat_neg _ _ _ (by simp [hash?])]
  rfl

/-- A setting has the value that it was given last behind the last delta of a history, or else the
value in this delta, or else the one that it had before. -/
theorem get_foldl_perform {delta? : String → Option k.Change} {history : List (Event k)}
    (h : ∀ hash ∈ history.filterMap hash?, (delta? hash).isSome) (f : Field k)
    (content : k.Content) :
    f.get (history.foldl (perform delta?) content) =
      (f.lastSet (editsSince history)).getD
        ((((history.filterMap hash?).getLast?.bind delta?).map f.given).getD (f.get content)) := by
  induction history using List.reverseRecOn with
  | nil => rfl
  | append_singleton history event ih =>
    rw [List.filterMap_append] at h ⊢
    rw [List.foldl_append, List.foldl_cons, List.foldl_nil]
    cases event with
    | edit e =>
      have hbefore := ih fun hash hmem => h hash (List.mem_append_left _ hmem)
      rw [perform, f.get_effect, hbefore, editsSince_append_edit, f.lastSet_append]
      cases f.setBy e <;> simp [hash?]
    | delta hash =>
      have hsome : (delta? hash).isSome := h hash (by simp [hash?])
      obtain ⟨change, hchange⟩ := Option.isSome_iff_exists.1 hsome
      rw [perform, hchange, editsSince_append_delta]
      simp [hash?, hchange, f.get_apply, Field.lastSet]

theorem groupId?_perform (delta? : String → Option k.Change) (content : k.Content)
    (event : Event k) : k.groupId? (event.perform delta? content) = k.groupId? content := by
  cases event with
  | edit e => cases e <;> rfl
  | delta hash =>
    rw [perform]
    split
    · cases k <;> rfl
    · rfl

end Event

/-- A single record is made of its settings and of the id that stays. -/
theorem Kind.IsSingle.content_ext (hk : k.IsSingle) {a b : k.Content}
    (hid : k.groupId? a = k.groupId? b) (h : ∀ f : Field k, f.get a = f.get b) : a = b := by
  cases hk with
  | profile =>
    obtain ⟨name, picture, blindedRequests, notePriority, noteExpiry⟩ := a
    obtain rfl : name = b.name := h .name
    obtain rfl : picture = b.picture := h .picture
    obtain rfl : blindedRequests = b.blindedRequests := h .blindedRequests
    obtain rfl : notePriority = b.notePriority := h .notePriority
    obtain rfl : noteExpiry = b.noteExpiry := h .noteExpiry
    rfl
  | info =>
    obtain ⟨id, name, description, picture, expiryTimer, created, deleteBefore,
      deleteAttachBefore⟩ := a
    obtain rfl : id = b.id := Option.some.inj hid
    obtain rfl : name = b.details.name := h .groupName
    obtain rfl : description = b.details.description := h .description
    obtain rfl : picture = b.details.picture := h .groupPicture
    obtain rfl : expiryTimer = b.details.expiryTimer := h .expiryTimer
    obtain rfl : created = b.details.created := h .created
    obtain rfl : deleteBefore = b.details.deleteBefore := h .deleteBefore
    obtain rfl : deleteAttachBefore = b.details.deleteAttachBefore := h .deleteAttachBefore
    rfl

namespace Config

variable {id : String} {start : Config k}

/-- The snapshot that was accepted last in the course of a run, if any was. -/
def latest? (start : Config k) (actions : List (Action k)) : Option k.Change :=
  (start.run actions).ledger.hashes.getLast?.bind
    (Message.deltaUnder k.changeSchema (start.along delivered actions))

/-- The edits of a run behind the last accepted snapshot. -/
def editsSince (start : Config k) (actions : List (Action k)) : List (Edit k) :=
  Event.editsSince (start.along events actions)

theorem explains_run (h : create k id = .ok start) (actions : List (Action k)) :
    Explains start (start.run actions) (start.along delivered actions)
      (start.along events actions) := (Explains.refl (hashes_of_create h)).run actions

/-- At the end of a run each setting has the value that it was given last behind the last accepted
snapshot, or else the value in this snapshot, or the blank one if none was accepted. -/
theorem get_run (h : create k id = .ok start) (actions : List (Action k)) (f : Field k) :
    f.get (start.run actions).content =
      (f.lastSet (start.editsSince actions)).getD
        (f.given ((start.latest? actions).getD k.blank)) := by
  have explained := explains_run h actions
  have hreadable := explained.readable
  rw [← explained.hashes_eq] at hreadable
  rw [explained.content_eq, Event.get_foldl_perform hreadable, explained.hashes_eq,
    Field.get_of_create h, Option.getD_map]
  rfl

/-- Nothing changes the id of a group. -/
theorem groupId?_run (h : create k id = .ok start) (actions : List (Action k)) :
    k.groupId? (start.run actions).content = k.groupId? start.content := by
  rw [(explains_run h actions).content_eq]
  induction start.along events actions using List.reverseRecOn with
  | nil => rfl
  | append_singleton history event ih =>
    rw [List.foldl_append, List.foldl_cons, List.foldl_nil, Event.groupId?_perform, ih]

theorem groupId?_of_create (h : create k id = .ok start) :
    ∀ group ∈ k.groupId? start.content, group = id ∧ IdKind.group.accepts group := by
  intro group hgroup
  cases k with
  | profile | collection c => cases hgroup
  | info =>
    obtain ⟨hcontent, haccepts⟩ := of_create_info h
    rw [hcontent] at hgroup
    cases hgroup
    exact ⟨rfl, haccepts⟩

/-- Two runs with the same last snapshot and the same edits behind it lead to the same content. -/
theorem content_run_eq (hk : k.IsSingle) (h : create k id = .ok start)
    {actions others : List (Action k)} (hlatest : start.latest? actions = start.latest? others)
    (hsince : start.editsSince actions = start.editsSince others) :
    (start.run actions).content = (start.run others).content := by
  refine hk.content_ext ?_ fun f => ?_
  · rw [groupId?_run h, groupId?_run h]
  · rw [get_run h, get_run h, hlatest, hsince]

/-- At the end of any run of a profile or of the info of a group, each setting has the value that
the last edit of it behind the last accepted snapshot gave it, or else its value in this snapshot,
or the blank one if no snapshot was accepted. So whatever came before, two replicas that accept the
same snapshot last, and are edited alike since, have the same dumps. The id of a group is always
the one for which its info was created, and is well formed. -/
theorem snapshots_converge (hk : k.IsSingle) (h : create k id = .ok start) :
    (∀ actions, ∀ f : Field k, f.get (start.run actions).content =
      (f.lastSet (start.editsSince actions)).getD
        (f.given ((start.latest? actions).getD k.blank))) ∧
    (∀ actions others, start.latest? actions = start.latest? others →
      start.editsSince actions = start.editsSince others →
        (Handle.config k (start.run actions)).dump = (Handle.config k (start.run others)).dump ∧
        (Handle.config k (start.run actions)).dumpPretty =
          (Handle.config k (start.run others)).dumpPretty) ∧
    ∀ actions, k.groupId? (start.run actions).content = k.groupId? start.content ∧
      ∀ group ∈ k.groupId? (start.run actions).content,
        group = id ∧ IdKind.group.accepts group := by
  refine ⟨get_run h, ?_, fun actions => ⟨groupId?_run h actions, ?_⟩⟩
  · intro actions others hlatest hsince
    have hdocument : (start.run actions).document = (start.run others).document :=
      congrArg k.document (content_run_eq hk h hlatest hsince)
    exact ⟨congrArg Json.compact hdocument, congrArg Json.pretty hdocument⟩
  · rw [groupId?_run h]
    exact groupId?_of_create h

/-- The first replica had a name, which the snapshot resets, and refused a message behind it. -/
theorem info_snapshots_converge :
    let id := String.ofList ('0' :: '3' :: List.replicate 64 'a')
    let start : Config .info := { content := { id } }
    let snapshot := Utf8.encode "\x7b\"id\":\"x\",\"description\":\"d\"\x7d".toList
    let named := Utf8.encode "\x7b\"name\":\"n\"\x7d".toList
    let actions : List (Action .info) :=
      [.edit (.groupName "old"), .merge [⟨"a", named⟩, ⟨"b", snapshot⟩],
        .merge [⟨"c", [0x21]⟩], .edit (.created 7)]
    let others : List (Action .info) := [.merge [⟨"z", snapshot⟩], .edit (.created 7), .markDumped]
    Kind.info.IsSingle ∧ create .info id = .ok start ∧
      start.latest? actions = some { description := some "d" } ∧
      start.latest? others = start.latest? actions ∧
      start.editsSince actions = [.created 7] ∧ start.editsSince others = [.created 7] ∧
      (Handle.config .info (start.run actions)).dump =
        (Handle.config .info (start.run others)).dump ∧
      (start.run actions).content.id = id := by
  intro id start snapshot named actions others
  have hcreate : create .info id = .ok start := by
    have haccepts : IdKind.group.accepts id := by decide +kernel
    simp only [create, IdKind.check, if_pos haccepts]
    rfl
  have hlatest : start.latest? actions = some { description := some "d" } := by decide +kernel
  have hothers : start.latest? others = some { description := some "d" } := by decide +kernel
  have hsince : start.editsSince actions = [.created 7] := by
    let renamed := start.act (.edit (.groupName "old"))
    have hmerge : renamed.returned (.merge [⟨"a", named⟩, ⟨"b", snapshot⟩]) = ["a", "b"] := by
      decide +kernel
    have hrefused : (renamed.act (.merge [⟨"a", named⟩, ⟨"b", snapshot⟩])).returned
        (.merge [⟨"c", [0x21]⟩]) = [] := by
      decide +kernel
    simp only [actions, editsSince, along, events, hmerge, hrefused, renamed]
    rfl
  have hothersSince : start.editsSince others = [.created 7] := by
    have hmerge : start.returned (.merge [⟨"z", snapshot⟩]) = ["z"] := by decide +kernel
    simp only [others, editsSince, along, events, hmerge]
    rfl
  obtain ⟨-, hdumps, hid⟩ := snapshots_converge .info hcreate
  refine ⟨.info, hcreate, hlatest, hothers.trans hlatest.symm, hsince, hothersSince, ?_, ?_⟩
  · exact (hdumps _ _ (hlatest.trans hothers.symm) (hsince.trans hothersSince.symm)).1
  · exact Option.some.inj (hid actions).1

end Config
end SyncedConfig
