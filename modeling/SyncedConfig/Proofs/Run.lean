import SyncedConfig.Config.Collection
import SyncedConfig.Config.Single

/-!
# Runs of a config

Between its creation and any later moment a config goes through edits by its user, merges
of batches and dumps, in any order. A run is the list of these actions. What is observed at
each of them adds up along the run.
-/
namespace SyncedConfig

/-- An edit by the user: records of a collection are put and erased, the settings of a
profile and of a group are set one by one. -/
inductive Edit : Kind → Type
  | set {c : CollectionKind} (record : c.Record) : Edit (.collection c)
  | erase {c : CollectionKind} (key : c.Key) : Edit (.collection c)
  | name (name : String) : Edit .profile
  | picture (picture : Picture) : Edit .profile
  | blindedRequests (accept : Option Bool) : Edit .profile
  | notePriority (priority : Int32) : Edit .profile
  | noteExpiry (expiry : Duration) : Edit .profile
  | groupName (name : String) : Edit .info
  | description (description : String) : Edit .info
  | groupPicture (picture : Picture) : Edit .info
  | expiryTimer (timer : Duration) : Edit .info
  | created (moment : Int64) : Edit .info
  | deleteBefore (moment : Int64) : Edit .info
  | deleteAttachBefore (moment : Int64) : Edit .info

/-- Whatever may happen to a config after its creation. -/
inductive Action (k : Kind)
  | edit (e : Edit k)
  | merge (messages : List Message)
  | markDumped

namespace Config

variable {k : Kind} {β : Type}

def perform : {k : Kind} → Config k → Edit k → Config k
  | _, c, .set record => c.set record
  | _, c, .erase key => (c.erase key).2
  | _, c, .name name => c.setName name
  | _, c, .picture picture => c.setPicture picture
  | _, c, .blindedRequests accept => c.setBlindedRequests accept
  | _, c, .notePriority priority => c.setNotePriority priority
  | _, c, .noteExpiry expiry => c.setNoteExpiry expiry
  | _, c, .groupName name => c.setGroupName name
  | _, c, .description description => c.setDescription description
  | _, c, .groupPicture picture => c.setGroupPicture picture
  | _, c, .expiryTimer timer => c.setExpiryTimer timer
  | _, c, .created moment => c.setCreated moment
  | _, c, .deleteBefore moment => c.setDeleteBefore moment
  | _, c, .deleteAttachBefore moment => c.setDeleteAttachBefore moment

def act (c : Config k) : Action k → Config k
  | .edit e => c.perform e
  | .merge messages => (c.merge messages).2
  | .markDumped => c.markDumped

def run (c : Config k) (actions : List (Action k)) : Config k := actions.foldl act c

/-- Adds up what is observed of each action in the config before it. -/
def along (observe : Config k → Action k → List β) (c : Config k) : List (Action k) → List β
  | [] => []
  | a :: rest => observe c a ++ along observe (c.act a) rest

/-- A config that has gone through some run since its creation. -/
def Reachable (c : Config k) : Prop :=
  ∃ id start actions, create k id = .ok start ∧ c = start.run actions

theorem reachable_run {id : String} {start : Config k} (h : create k id = .ok start)
    (actions : List (Action k)) : (start.run actions).Reachable := ⟨id, start, actions, h, rfl⟩

theorem ledger_of_create {id : String} {start : Config k} (h : create k id = .ok start) :
    start.ledger = {} := by
  cases k with
  | info =>
    simp only [create, bind, Except.bind] at h
    split at h
    · cases h
    · cases h
      rfl
  | _ =>
    cases h
    rfl

theorem Reachable.run {c : Config k} (h : c.Reachable) (actions : List (Action k)) :
    (c.run actions).Reachable := by
  obtain ⟨id, start, before, hcreate, rfl⟩ := h
  exact ⟨id, start, before ++ actions, hcreate, (List.foldl_append ..).symm⟩

@[simp] theorem run_nil (c : Config k) : c.run [] = c := rfl

@[simp] theorem run_cons (c : Config k) (a : Action k) (rest : List (Action k)) :
    c.run (a :: rest) = (c.act a).run rest := rfl

@[simp] theorem run_append (c : Config k) (before after : List (Action k)) :
    c.run (before ++ after) = (c.run before).run after := List.foldl_append ..

end Config

def Edit.effect {k : Kind} (e : Edit k) (content : k.Content) : k.Content :=
  (Config.perform { content } e).content

namespace Config

variable {k : Kind}

theorem perform_content (c : Config k) (e : Edit k) :
    (c.perform e).content = e.effect c.content := by
  cases e with
  | erase key =>
    simp only [Edit.effect, perform, erase]
    split <;> rfl
  | _ => rfl

theorem perform_hashes (c : Config k) (e : Edit k) :
    (c.perform e).ledger.hashes = c.ledger.hashes := by
  cases e with
  | erase key =>
    simp only [perform, erase]
    split <;> rfl
  | _ => rfl

end Config
end SyncedConfig
