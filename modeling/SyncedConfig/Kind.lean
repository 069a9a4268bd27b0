import SyncedConfig.Delta
import SyncedConfig.Record.Contact
import SyncedConfig.Record.Conversation
import SyncedConfig.Record.GroupInfo
import SyncedConfig.Record.Member
import SyncedConfig.Record.Profile
import SyncedConfig.Record.UserGroup

/-!
# Kinds of configs

A config is a collection of records, each under its own key, or a single record. The kind
fixes what a config holds, which deltas it takes and how it is dumped. Collections change
by deltas of records and keys; a single record is replaced as a whole, but the id of a
group stays.
-/
namespace SyncedConfig

open Std

inductive CollectionKind
  | conversations
  | groups
  | contacts
  | members
  deriving DecidableEq

namespace CollectionKind

abbrev Key : CollectionKind → Type
  | conversations => ConversationKey
  | groups => UserGroupKey
  | contacts | members => String

abbrev Record : CollectionKind → Type
  | conversations => Conversation
  | groups => UserGroup
  | contacts => Contact
  | members => Member

instance : (c : CollectionKind) → Ord c.Key
  | conversations => inferInstanceAs (Ord ConversationKey)
  | groups => inferInstanceAs (Ord UserGroupKey)
  | contacts | members => inferInstanceAs (Ord String)

instance : (c : CollectionKind) → TransOrd c.Key
  | conversations => inferInstanceAs (TransOrd ConversationKey)
  | groups => inferInstanceAs (TransOrd UserGroupKey)
  | contacts | members => inferInstanceAs (TransOrd String)

instance : (c : CollectionKind) → LawfulEqOrd c.Key
  | conversations => inferInstanceAs (LawfulEqOrd ConversationKey)
  | groups => inferInstanceAs (LawfulEqOrd UserGroupKey)
  | contacts | members => inferInstanceAs (LawfulEqOrd String)

/-- The key under which a record is kept. -/
def keyOf : (c : CollectionKind) → c.Record → c.Key
  | conversations => Conversation.key
  | groups => UserGroup.key
  | contacts => Contact.sessionId
  | members => Member.sessionId

def keySchema : (c : CollectionKind) → Schema c.Key
  | conversations => ConversationKey.schema
  | groups => UserGroupKey.schema
  | contacts | members => .text

def recordSchema : (c : CollectionKind) → Schema c.Record
  | conversations => Conversation.schema
  | groups => UserGroup.schema
  | contacts => Contact.schema
  | members => Member.schema

def recordDocument : (c : CollectionKind) → c.Record → Json
  | conversations => Conversation.document
  | groups => UserGroup.document
  | contacts => Contact.document
  | members => Member.document

/-- The records of a collection, each under its key. -/
abbrev Records (c : CollectionKind) : Type := KeyMap c.Key c.Record

end CollectionKind

inductive Kind
  | profile
  | collection (c : CollectionKind)
  | info
  deriving DecidableEq

namespace Kind

@[match_pattern] abbrev conversations : Kind := collection .conversations
@[match_pattern] abbrev groups : Kind := collection .groups
@[match_pattern] abbrev contacts : Kind := collection .contacts
@[match_pattern] abbrev members : Kind := collection .members

def all : List Kind := [profile, conversations, groups, contacts, members, info]

def name : Kind → String
  | profile => "UserProfile"
  | conversations => "ConvoInfoVolatile"
  | groups => "UserGroups"
  | contacts => "Contacts"
  | members => "Members"
  | info => "Info"

/-- The number by which a host asks for a kind. -/
def code : Kind → UInt32
  | profile => 0
  | conversations => 1
  | groups => 2
  | contacts => 3
  | members => 4
  | info => 5

def ofCode? (code : UInt32) : Option Kind := all.find? (·.code = code)

/-- What a config of a kind holds. -/
abbrev Content : Kind → Type
  | profile => Profile
  | collection c => c.Records
  | info => GroupInfo

/-- What changes a config of a kind. -/
abbrev Change : Kind → Type
  | profile => Profile
  | collection c => Delta c.Key c.Record
  | info => GroupDetails

def changeSchema : (k : Kind) → Schema k.Change
  | profile => Profile.schema
  | collection c => Delta.schema c.recordSchema c.keySchema
  | info => GroupDetails.schema

def apply : (k : Kind) → k.Content → k.Change → k.Content
  | profile, _, p => p
  | collection c, records, delta => delta.apply c.keyOf records
  | info, g, details => { g with details }

def document : (k : Kind) → k.Content → Json
  | profile, p => p.document
  | collection c, records => .list (records.values.map c.recordDocument)
  | info, g => g.document

end Kind
end SyncedConfig
