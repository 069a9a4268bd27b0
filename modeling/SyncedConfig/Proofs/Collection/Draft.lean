import SyncedConfig.Proofs.Collection.Lookup

/-!
# Collections keep records under their own keys

In the course of any run a collection behaves as a look-up that changes one entry at a time,
and every entry is kept under the key of its record. Therefore a draft is the kept record
whenever there is one under the requested key, and to put it back adds no second entry.
-/
namespace SyncedConfig

def ConversationKey.sort : ConversationKey → String
  | oneToOne _ => "one_to_one"
  | community _ => "community"
  | group _ => "group"
  | legacyGroup _ => "legacy_group"

def UserGroupKey.sort : UserGroupKey → String
  | group _ => "group"
  | community _ => "community"
  | legacyGroup _ => "legacy_group"

namespace CollectionKind

/-- A key and a record are of the same sort, where there are several. -/
def SameSort : (c : CollectionKind) → c.Key → c.Record → Prop
  | conversations, key, record => key.sort = record.sort
  | groups, key, record => key.sort = record.sort
  | contacts, _, _ | members, _, _ => True

theorem sameSort_keyOf (c : CollectionKind) (record : c.Record) :
    c.SameSort (c.keyOf record) record := by
  cases c with
  | conversations => cases record <;> rfl
  | groups => cases record <;> rfl
  | contacts | members => trivial

end CollectionKind

/-- Asks a collection for a draft of a record. -/
inductive Request : CollectionKind → Type
  | contact (id : String) : Request .contacts
  | member (id : String) : Request .members
  | oneToOne (id : String) : Request .conversations
  | groupChat (id : String) : Request .conversations
  | legacyChat (id : String) : Request .conversations
  | communityChat (baseUrl room key : String) : Request .conversations
  | group (id : String) : Request .groups
  | legacyGroup (id : String) : Request .groups
  | community (baseUrl room key : String) : Request .groups

variable {c : CollectionKind}

namespace Request

def target : {c : CollectionKind} → Request c → Except SyncError (c.Key × c.Record)
  | _, contact id => do
    IdKind.account.check id
    return (id, { sessionId := id })
  | _, member id => do
    IdKind.account.check id
    return (id, { sessionId := id })
  | _, oneToOne id => do
    IdKind.account.check id
    return (.oneToOne id, .oneToOne { peer := id })
  | _, groupChat id => do
    IdKind.group.check id
    return (.group id, .group { peer := id })
  | _, legacyChat id => do
    IdKind.account.check id
    return (.legacyGroup id, .legacyGroup { peer := id })
  | _, communityChat baseUrl room key => do
    let community ← Community.parse baseUrl room key
    return (.community community.address, .community { peer := community })
  | _, group id => do
    IdKind.group.check id
    return (.group id, .group { id })
  | _, legacyGroup id => do
    IdKind.account.check id
    return (.legacyGroup id, .legacyGroup { sessionId := id, people := .empty })
  | _, community baseUrl room key => do
    let community ← Community.parse baseUrl room key
    return (.community community.address, .community { community })

variable {request : Request c} {key : c.Key} {blank : c.Record}

theorem keyOf_of_bind {α : Type} {accepted : Except SyncError α} {keys : α → c.Key}
    {blanks : α → c.Record}
    (h : (accepted >>= fun a => pure (keys a, blanks a)) = .ok (key, blank))
    (hkey : ∀ a, c.keyOf (blanks a) = keys a) : c.keyOf blank = key := by
  cases accepted with
  | error e => cases h
  | ok a =>
    cases h
    exact hkey a

/-- A fresh record has the requested key. -/
theorem keyOf_target (h : request.target = .ok (key, blank)) : c.keyOf blank = key := by
  cases request <;> exact keyOf_of_bind h fun _ => rfl

end Request

namespace Config

variable {config : Config (.collection c)}

def draft : {c : CollectionKind} → Config (.collection c) → Request c → Except SyncError c.Record
  | _, config, .contact id => config.contactDraft id
  | _, config, .member id => config.memberDraft id
  | _, config, .oneToOne id => (config.oneToOneDraft id).map .oneToOne
  | _, config, .groupChat id => (config.groupChatDraft id).map .group
  | _, config, .legacyChat id => (config.legacyChatDraft id).map .legacyGroup
  | _, config, .communityChat baseUrl room key =>
    (config.communityChatDraft baseUrl room key).map .community
  | _, config, .group id => (config.groupDraft id).map .group
  | _, config, .legacyGroup id => (config.legacyGroupDraft id).map .legacyGroup
  | _, config, .community baseUrl room key =>
    (config.communityDraft baseUrl room key).map .community

/-- A draft that is right behind any acceptance of a request is right. -/
theorem map_bind_eq {α ρ : Type} {accepted : Except SyncError α} {look : α → Except SyncError ρ}
    {wrap : ρ → c.Record} {key : α → c.Key} {blank : α → c.Record}
    (h : ∀ a, (look a).map wrap = .ok ((config.get? (key a)).getD (blank a))) :
    (accepted >>= look).map wrap =
      (accepted >>= fun a => pure (key a, blank a)).map fun t => (config.get? t.1).getD t.2 := by
  cases accepted with
  | error e => rfl
  | ok a => exact h a

/-- A draft is the record that is kept under the requested key, or else the fresh one. -/
theorem draft_eq (h : EntryChange.OwnKeys config.get?) (request : Request c) :
    config.draft request = request.target.map fun t => (config.get? t.1).getD t.2 := by
  cases request with
  | contact id | member id =>
    simp only [draft, contactDraft, memberDraft, Request.target]
    cases IdKind.account.check id <;> rfl
  | _ =>
    simp only [draft, oneToOneDraft, groupChatDraft, legacyChatDraft, communityChatDraft,
      groupDraft, legacyGroupDraft, communityDraft, Request.target]
    refine map_bind_eq fun _ => ?_
    split
    next kept hget =>
      rw [hget]
      rfl
    next hother =>
      rw [h.eq_none_of_sort hother fun record hkey => ?_]
      · rfl
      · cases record <;> first | exact ⟨_, rfl⟩ | nomatch hkey

theorem content_set_of_get? {record : c.Record} (h : config.get? (c.keyOf record) = some record) :
    (config.set record).content = config.content := by
  refine KeyMap.ext_get? fun key => ?_
  change (config.set record).get? key = config.get? key
  rw [get?_set, EntryChange.perform]
  split
  next hkey => rw [hkey, h]
  next => rfl

/-- A request is refused, or its draft is the record that is kept under the requested key, or a
fresh one with that key if there is none. To put the draft back changes no other entry, and none
at all if it is the kept record; a fresh one adds one entry. -/
def Serves (config : Config (.collection c)) (request : Request c) : Prop :=
  match request.target with
  | .error e => config.draft request = .error e
  | .ok (key, blank) => ∃ draft, config.draft request = .ok draft ∧ c.keyOf draft = key ∧
    (match config.get? key with
      | some stored => draft = stored ∧ (config.set draft).content = config.content
      | none => draft = blank ∧ (config.set draft).size = config.size + 1) ∧
    ∀ j, j ≠ key → (config.set draft).get? j = config.get? j

theorem get?_set_of_ne {record : c.Record} {key : c.Key} (h : key ≠ c.keyOf record) :
    (config.set record).get? key = config.get? key := by
  rw [get?_set, EntryChange.perform, if_neg h]

theorem size_set (config : Config (.collection c)) (record : c.Record) :
    (config.set record).size =
      if (config.get? (c.keyOf record)).isSome then config.size else config.size + 1 :=
  KeyMap.size_insert config.content (c.keyOf record) record

theorem serves (h : EntryChange.OwnKeys config.get?) (request : Request c) :
    config.Serves request := by
  have hdraft := draft_eq h request
  rw [Serves]
  cases htarget : request.target with
  | error e =>
    rw [htarget] at hdraft
    exact hdraft
  | ok target =>
    obtain ⟨key, blank⟩ := target
    rw [htarget] at hdraft
    simp only [Except.map] at hdraft ⊢
    cases hget : config.get? key with
    | none =>
      obtain rfl : c.keyOf blank = key := Request.keyOf_target htarget
      rw [hget] at hdraft
      have hsize : (config.set blank).size = config.size + 1 := by
        rw [size_set, hget]
        rfl
      exact ⟨blank, hdraft, rfl, ⟨rfl, hsize⟩, fun j => get?_set_of_ne⟩
    | some stored =>
      obtain rfl : c.keyOf stored = key := h key stored hget
      rw [hget] at hdraft
      exact ⟨stored, hdraft, rfl, ⟨rfl, content_set_of_get? hget⟩, fun j => get?_set_of_ne⟩

/-- At the end of any run a collection finds what the changes along the run, one after the other,
make of an empty look-up. Each entry is kept under the key of its record, which is of the same
sort, and no two under one key; putting a record and erasing a key concern no other entry, and a
key is erased if there is an entry under it. So every request for a draft is served. -/
theorem collection_refines_lookup {id : String} {start : Config (.collection c)}
    (h : create (.collection c) id = .ok start) (actions : List (Action (.collection c))) :
    let config := start.run actions
    config.get? = (start.along entryChanges actions).foldl EntryChange.perform (fun _ => none) ∧
    (∀ entry ∈ KeyMap.entries config.content,
      entry.1 = c.keyOf entry.2 ∧ c.SameSort entry.1 entry.2) ∧
    (KeyMap.keys config.content).Nodup ∧
    (∀ record key, (config.set record).get? key =
      if key = c.keyOf record then some record else config.get? key) ∧
    (∀ erased, (config.erase erased).1 = (config.get? erased).isSome ∧
      ∀ key, (config.erase erased).2.get? key =
        if key = erased then none else config.get? key) ∧
    ∀ request, config.Serves request := by
  intro config
  have hown := ownKeys_run h actions
  refine ⟨?_, ?_, KeyMap.keys_nodup _, ?_, ?_, serves hown⟩
  · rw [get?_run, get?_of_create h]
  · rintro ⟨key, record⟩ hentry
    have hkey : c.keyOf record = key := hown key record (KeyMap.get?_eq_some_iff.2 hentry)
    subst hkey
    exact ⟨rfl, c.sameSort_keyOf record⟩
  · intro record key
    rw [get?_set, EntryChange.perform]
  · intro erased
    refine ⟨?_, fun key => by rw [get?_erase, EntryChange.perform]⟩
    simp only [erase]
    split
    next hkept => exact hkept.symm
    next habsent => exact (eq_false_of_ne_true habsent).symm

theorem community_draft_served :
    let mark : ReadMark Community := ⟨⟨"http://host", "room", .replicate 32 0x2a⟩, 7, true⟩
    let start : Config .conversations := { content := {} }
    let actions : List (Action .conversations) :=
      [.edit (.set (.community mark)), .markDumped, .edit (.erase (.group "room"))]
    let request : Request .conversations :=
      .communityChat "HTTP://Host:80/" "Room" (String.ofList (.replicate 64 '0'))
    create .conversations "" = .ok start ∧
      request.target.map (·.1) = .ok (.community "http://host/room") ∧
      (start.run actions).get? (.community "http://host/room") = some (.community mark) ∧
      (start.run actions).Serves request :=
  have h : create .conversations "" = .ok { content := {} } := rfl
  ⟨h, rfl, by decide, (collection_refines_lookup h _).2.2.2.2.2 _⟩

end Config
end SyncedConfig
