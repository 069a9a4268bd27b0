import SyncedConfig.Duration
import SyncedConfig.Identifier
import SyncedConfig.Record.Community
import SyncedConfig.Record.Modes

/-!
# Groups of a user

A user belongs to closed groups, legacy groups and communities. What all of them share is
the membership of the user; each adds its own fields. Keys are in order of their sort
first: groups, communities, legacy groups.
-/
namespace SyncedConfig

open Std

structure Membership where
  priority : Int32 := 0
  name : String := ""
  invited : Bool := false
  joinedAt : Int64 := 0
  muteUntil : Option Int64 := none
  notifications : NotificationMode := .byApp
  deriving DecidableEq, Inhabited

namespace Membership

def schema : Schema Membership :=
  .plain "BaseGroupInfo"
    (.field "priority" (.word .int32) (some 0) <|
      .field "name" .text (some "") <|
      .field "invited" .flag (some false) <|
      .field "joined_at" (.word .int64) (some 0) <|
      .field "mute_until" (.optional (.word .int64)) (some none) <|
      .field "notifications" NotificationMode.schema (some .byApp) .done)
    (fun m => (m.priority, m.name, m.invited, m.joinedAt, m.muteUntil, m.notifications, ()))
    (fun (priority, name, invited, joinedAt, muteUntil, notifications, ()) =>
      { priority, name, invited, joinedAt, muteUntil, notifications })
    (fun _ => rfl)

def members (m : Membership) : List (String × Json) :=
  [("priority", .integer m.priority.toInt),
    ("name", .text m.name),
    ("invited", .bool m.invited),
    ("joined_at", .integer m.joinedAt.toInt),
    ("mute_until", .ofInt64? m.muteUntil),
    ("notifications", .text m.notifications.token)]

def document (m : Membership) : Json := .object m.members

end Membership

structure ClosedGroup where
  membership : Membership := {}
  id : String
  secretKey : Bytes := []
  authData : Bytes := []
  deriving DecidableEq

namespace ClosedGroup

def schema : Schema ClosedGroup :=
  .plain "GroupInfo"
    (.field "base" Membership.schema none <|
      .field "id" .text none <|
      .field "secret_key" .bytes none <|
      .field "auth_data" .bytes none .done)
    (fun g => (g.membership, g.id, g.secretKey, g.authData, ()))
    (fun (membership, id, secretKey, authData, ()) => { membership, id, secretKey, authData })
    (fun _ => rfl)

def members (g : ClosedGroup) : List (String × Json) :=
  g.membership.members ++
    [("id", .text g.id),
      ("secret_key", .ofBytes g.secretKey),
      ("auth_data", .ofBytes g.authData)]

end ClosedGroup

/-- A legacy group with its members, each of whom may be an admin. -/
structure LegacyGroup where
  membership : Membership := {}
  sessionId : String
  publicKey : Bytes := []
  secretKey : Bytes := []
  timer : Duration := .zero
  people : KeyMap String Bool := {}
  deriving DecidableEq

namespace LegacyGroup

def schema : Schema LegacyGroup :=
  .plain "LegacyGroupInfo"
    (.field "base" Membership.schema none <|
      .field "session_id" .text none <|
      .field "enc_pubkey" .bytes none <|
      .field "enc_seckey" .bytes none <|
      .field "disappearing_timer" Duration.schema none <|
      .field "members" (.dictionary .flag) none .done)
    (fun g => (g.membership, g.sessionId, g.publicKey, g.secretKey, g.timer, g.people, ()))
    (fun (membership, sessionId, publicKey, secretKey, timer, people, ()) =>
      { membership, sessionId, publicKey, secretKey, timer, people })
    (fun _ => rfl)

/-- Puts a member, and tells whether this changed the group. -/
def insertMember (g : LegacyGroup) (id : String) (admin : Bool) :
    Except SyncError (Bool × LegacyGroup) := do
  IdKind.account.check id
  return (g.people.get? id ≠ some admin, { g with people := g.people.insert id admin })

/-- Removes a member, and tells whether there was one. -/
def eraseMember (g : LegacyGroup) (id : String) : Bool × LegacyGroup :=
  (g.people.contains id, { g with people := g.people.erase id })

def counts (g : LegacyGroup) : Nat × Nat :=
  let admins := (g.people.values.filter (· = true)).length
  (admins, g.people.size - admins)

def person (entry : String × Bool) : Json :=
  .object [("session_id", .text entry.1), ("admin", .bool entry.2)]

def members (g : LegacyGroup) : List (String × Json) :=
  g.membership.members ++
    [("session_id", .text g.sessionId),
      ("enc_pubkey", .ofBytes g.publicKey),
      ("enc_seckey", .ofBytes g.secretKey),
      ("disappearing_timer", g.timer.document),
      ("members", .list (g.people.entries.map person))]

end LegacyGroup

structure JoinedCommunity where
  membership : Membership := {}
  community : Community
  deriving DecidableEq

namespace JoinedCommunity

def schema : Schema JoinedCommunity :=
  .plain "CommunityInfo"
    (.field "base" Membership.schema none <|
      .field "community" Community.schema none .done)
    (fun g => (g.membership, g.community, ()))
    (fun (membership, community, ()) => { membership, community })
    (fun _ => rfl)

def members (g : JoinedCommunity) : List (String × Json) :=
  g.membership.members ++ g.community.members

end JoinedCommunity

inductive UserGroup
  | group (g : ClosedGroup)
  | legacyGroup (g : LegacyGroup)
  | community (g : JoinedCommunity)
  deriving DecidableEq

inductive UserGroupKey
  | group (id : String)
  | community (address : String)
  | legacyGroup (sessionId : String)
  deriving DecidableEq

namespace UserGroupKey

def rank : UserGroupKey → Nat
  | group _ => 0
  | community _ => 1
  | legacyGroup _ => 2

def id : UserGroupKey → String
  | group id | community id | legacyGroup id => id

instance : Ord UserGroupKey := ⟨compareLex (compareOn rank) (compareOn id)⟩

instance : TransOrd UserGroupKey :=
  inferInstanceAs (TransCmp (compareLex (compareOn rank) (compareOn id)))

instance : LawfulEqOrd UserGroupKey where
  eq_of_compare {a b} h := by
    have h : compareLex (compareOn rank) (compareOn id) a b = .eq := h
    obtain ⟨hr, hi⟩ := Ordering.then_eq_eq.1 h
    have hr : rank a = rank b := LawfulEqOrd.eq_of_compare hr
    have hi : id a = id b := LawfulEqOrd.eq_of_compare hi
    cases a <;> cases b <;> simp_all [rank, id]

def cases : Cases (String ⊕ String ⊕ String) :=
  .more "group" .text <| .more "community" .text <| .last "legacy_group" .text

def schema : Schema UserGroupKey :=
  .union cases
    (fun
      | group id => .inl id
      | community id => .inr (.inl id)
      | legacyGroup id => .inr (.inr id))
    (fun
      | .inl id => group id
      | .inr (.inl id) => community id
      | .inr (.inr id) => legacyGroup id)
    (fun key => by cases key <;> rfl)

end UserGroupKey

namespace UserGroup

def key : UserGroup → UserGroupKey
  | group g => .group g.id
  | legacyGroup g => .legacyGroup g.sessionId
  | community g => .community g.community.address

def membership : UserGroup → Membership
  | group g => g.membership
  | legacyGroup g => g.membership
  | community g => g.membership

def cases : Cases (ClosedGroup ⊕ LegacyGroup ⊕ JoinedCommunity) :=
  .more "group" ClosedGroup.schema <| .more "legacy_group" LegacyGroup.schema <|
    .last "community" JoinedCommunity.schema

def schema : Schema UserGroup :=
  .union cases
    (fun
      | group g => .inl g
      | legacyGroup g => .inr (.inl g)
      | community g => .inr (.inr g))
    (fun
      | .inl g => group g
      | .inr (.inl g) => legacyGroup g
      | .inr (.inr g) => community g)
    (fun g => by cases g <;> rfl)

def sort : UserGroup → String
  | group _ => "group"
  | legacyGroup _ => "legacy_group"
  | community _ => "community"

def members : UserGroup → List (String × Json)
  | group g => g.members
  | legacyGroup g => g.members
  | community g => g.members

def document (g : UserGroup) : Json := .object (g.members ++ [("type", .text g.sort)])

end UserGroup
end SyncedConfig
