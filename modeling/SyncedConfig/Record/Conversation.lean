import SyncedConfig.Record.Community

/-!
# Conversations

How far the messages of a conversation have been read. A conversation is with another
account, in a group, in a legacy group or in a community. Its key holds what identifies it,
and keys are in order of their sort first: accounts, communities, groups, legacy groups.
-/
namespace SyncedConfig

open Std

/-- How far the messages of a peer have been read. -/
structure ReadMark (π : Type) where
  peer : π
  lastRead : Int64 := 0
  unread : Bool := false
  deriving DecidableEq

namespace ReadMark

variable {π : Type}

/-- A record of the given name, with the peer as field of the given name. -/
def schema (record field : String) (peer : Schema π) : Schema (ReadMark π) :=
  .plain record
    (.field field peer none <| .field "last_read" (.word .int64) none <|
      .field "unread" .flag none .done)
    (fun m => (m.peer, m.lastRead, m.unread, ()))
    (fun (peer, lastRead, unread, ()) => { peer, lastRead, unread })
    (fun _ => rfl)

def members (m : ReadMark π) : List (String × Json) :=
  [("last_read", .integer m.lastRead.toInt), ("unread", .bool m.unread)]

end ReadMark

inductive Conversation
  | oneToOne (mark : ReadMark String)
  | group (mark : ReadMark String)
  | legacyGroup (mark : ReadMark String)
  | community (mark : ReadMark Community)
  deriving DecidableEq

inductive ConversationKey
  | oneToOne (sessionId : String)
  | community (address : String)
  | group (id : String)
  | legacyGroup (id : String)
  deriving DecidableEq

namespace ConversationKey

def rank : ConversationKey → Nat
  | oneToOne _ => 0
  | community _ => 1
  | group _ => 2
  | legacyGroup _ => 3

def id : ConversationKey → String
  | oneToOne id | community id | group id | legacyGroup id => id

instance : Ord ConversationKey := ⟨compareLex (compareOn rank) (compareOn id)⟩

instance : TransOrd ConversationKey :=
  inferInstanceAs (TransCmp (compareLex (compareOn rank) (compareOn id)))

instance : LawfulEqOrd ConversationKey where
  eq_of_compare {a b} h := by
    have h : compareLex (compareOn rank) (compareOn id) a b = .eq := h
    obtain ⟨hr, hi⟩ := Ordering.then_eq_eq.1 h
    have hr : rank a = rank b := LawfulEqOrd.eq_of_compare hr
    have hi : id a = id b := LawfulEqOrd.eq_of_compare hi
    cases a <;> cases b <;> simp_all [rank, id]

def cases : Cases (String ⊕ String ⊕ String ⊕ String) :=
  .more "one_to_one" .text <| .more "community" .text <| .more "group" .text <|
    .last "legacy_group" .text

def schema : Schema ConversationKey :=
  .union cases
    (fun
      | oneToOne id => .inl id
      | community id => .inr (.inl id)
      | group id => .inr (.inr (.inl id))
      | legacyGroup id => .inr (.inr (.inr id)))
    (fun
      | .inl id => oneToOne id
      | .inr (.inl id) => community id
      | .inr (.inr (.inl id)) => group id
      | .inr (.inr (.inr id)) => legacyGroup id)
    (fun key => by cases key <;> rfl)

end ConversationKey

namespace Conversation

def key : Conversation → ConversationKey
  | oneToOne m => .oneToOne m.peer
  | group m => .group m.peer
  | legacyGroup m => .legacyGroup m.peer
  | community m => .community m.peer.address

def lastRead : Conversation → Int64
  | oneToOne m | group m | legacyGroup m => m.lastRead
  | community m => m.lastRead

def oneToOneSchema : Schema (ReadMark String) := ReadMark.schema "OneToOne" "session_id" .text

def groupSchema : Schema (ReadMark String) := ReadMark.schema "Group" "id" .text

def legacyGroupSchema : Schema (ReadMark String) := ReadMark.schema "LegacyGroup" "id" .text

def communitySchema : Schema (ReadMark Community) :=
  ReadMark.schema "Community" "community" Community.schema

def cases : Cases (ReadMark String ⊕ ReadMark String ⊕ ReadMark String ⊕ ReadMark Community) :=
  .more "one_to_one" oneToOneSchema <| .more "group" groupSchema <|
    .more "legacy_group" legacyGroupSchema <| .last "community" communitySchema

def schema : Schema Conversation :=
  .union cases
    (fun
      | oneToOne m => .inl m
      | group m => .inr (.inl m)
      | legacyGroup m => .inr (.inr (.inl m))
      | community m => .inr (.inr (.inr m)))
    (fun
      | .inl m => oneToOne m
      | .inr (.inl m) => group m
      | .inr (.inr (.inl m)) => legacyGroup m
      | .inr (.inr (.inr m)) => community m)
    (fun c => by cases c <;> rfl)

def sort : Conversation → String
  | oneToOne _ => "one_to_one"
  | group _ => "group"
  | legacyGroup _ => "legacy_group"
  | community _ => "community"

def members : Conversation → List (String × Json)
  | oneToOne m => ("session_id", .text m.peer) :: m.members
  | group m | legacyGroup m => ("id", .text m.peer) :: m.members
  | community m => m.peer.members ++ m.members

def document (c : Conversation) : Json := .object (c.members ++ [("type", .text c.sort)])

end Conversation
end SyncedConfig
