import SyncedConfig.Config.Basic

/-!
# Collections

Records are put under their own keys, looked up and erased. A draft of a record is the
one that is kept under the requested key, or a fresh one with that key, and keeps nothing
until it is put.
-/
namespace SyncedConfig.Config

section Records

variable {c : CollectionKind}

def get? (config : Config (.collection c)) (key : c.Key) : Option c.Record :=
  KeyMap.get? config.content key

def set (config : Config (.collection c)) (record : c.Record) : Config (.collection c) :=
  config.edit fun records => KeyMap.insert records (c.keyOf record) record

/-- Erases a record, and tells whether there was one. -/
def erase (config : Config (.collection c)) (key : c.Key) : Bool × Config (.collection c) :=
  if KeyMap.contains config.content key then
    (true, config.edit fun records => KeyMap.erase records key)
  else (false, config)

def size (config : Config (.collection c)) : Nat := KeyMap.size config.content

def isEmpty (config : Config (.collection c)) : Bool := KeyMap.isEmpty config.content

def records (config : Config (.collection c)) : List c.Record := KeyMap.values config.content

end Records

section Drafts

def contactDraft (config : Config .contacts) (id : String) : Except SyncError Contact := do
  IdKind.account.check id
  return (config.get? id).getD { sessionId := id }

def memberDraft (config : Config .members) (id : String) : Except SyncError Member := do
  IdKind.account.check id
  return (config.get? id).getD { sessionId := id }

def oneToOneDraft (config : Config .conversations) (id : String) :
    Except SyncError (ReadMark String) := do
  IdKind.account.check id
  match config.get? (.oneToOne id) with
  | some (.oneToOne mark) => return mark
  | _ => return { peer := id }

def groupChatDraft (config : Config .conversations) (id : String) :
    Except SyncError (ReadMark String) := do
  IdKind.group.check id
  match config.get? (.group id) with
  | some (.group mark) => return mark
  | _ => return { peer := id }

def legacyChatDraft (config : Config .conversations) (id : String) :
    Except SyncError (ReadMark String) := do
  IdKind.account.check id
  match config.get? (.legacyGroup id) with
  | some (.legacyGroup mark) => return mark
  | _ => return { peer := id }

def communityChatDraft (config : Config .conversations) (baseUrl room key : String) :
    Except SyncError (ReadMark Community) := do
  let community ← Community.parse baseUrl room key
  match config.get? (.community community.address) with
  | some (.community mark) => return mark
  | _ => return { peer := community }

def groupDraft (config : Config .groups) (id : String) : Except SyncError ClosedGroup := do
  IdKind.group.check id
  match config.get? (.group id) with
  | some (.group g) => return g
  | _ => return { id }

def legacyGroupDraft (config : Config .groups) (id : String) : Except SyncError LegacyGroup := do
  IdKind.account.check id
  match config.get? (.legacyGroup id) with
  | some (.legacyGroup g) => return g
  | _ => return { sessionId := id }

def communityDraft (config : Config .groups) (baseUrl room key : String) :
    Except SyncError JoinedCommunity := do
  let community ← Community.parse baseUrl room key
  match config.get? (.community community.address) with
  | some (.community g) => return g
  | _ => return { community }

end Drafts

/-- The communities that a user has joined, in the order of their addresses. -/
def communities (config : Config .groups) : List JoinedCommunity :=
  (records config).filterMap fun
    | .community g => some g
    | _ => none

def count (config : Config .conversations) (p : Conversation → Bool) : Nat :=
  ((records config).filter p).length

def sizeOneToOne (config : Config .conversations) : Nat :=
  config.count fun
    | .oneToOne _ => true
    | _ => false

def sizeGroups (config : Config .conversations) : Nat :=
  config.count fun
    | .group _ => true
    | _ => false

def sizeLegacyGroups (config : Config .conversations) : Nat :=
  config.count fun
    | .legacyGroup _ => true
    | _ => false

def sizeCommunities (config : Config .conversations) : Nat :=
  config.count fun
    | .community _ => true
    | _ => false

end SyncedConfig.Config
