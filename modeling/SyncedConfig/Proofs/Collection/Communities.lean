import SyncedConfig.Proofs.Collection.Draft
import SyncedConfig.Proofs.Collection.Transfer

/-!
# What identifies a community

The address of a community does not say where the server ends and the room begins. Two
references have one address if server and room are the same, and else only if the end of one
server is the start of the other room. Communities that are not alike in this way stay apart in
every collection.
-/
namespace SyncedConfig

namespace Community

def SamePlace (c d : Community) : Prop :=
  c.canonicalBaseUrl = d.canonicalBaseUrl ∧ c.normalRoom = d.normalRoom

/-- The server of a community ends with a path with which the room of the other starts. -/
def Shifts (c d : Community) : Prop :=
  ∃ path, c.canonicalBaseUrl = d.canonicalBaseUrl ++ "/" ++ path ∧
    d.normalRoom = path ++ "/" ++ c.normalRoom

/-- Communities that cannot be told apart. -/
def Alike (c d : Community) : Prop := c.SamePlace d ∨ c.Shifts d ∨ d.Shifts c

variable {c d : Community}

theorem Alike.refl (c : Community) : c.Alike c := .inl ⟨rfl, rfl⟩

theorem Shifts.address_eq (h : c.Shifts d) : c.address = d.address := by
  obtain ⟨path, hserver, hroom⟩ := h
  simp only [address, hserver, hroom, String.append_assoc]

/-- Where a server and a room meet in a text there may be another place at which they could. -/
theorem append_slash_eq_iff {server server' room room' : List Char} :
    server ++ '/' :: room = server' ++ '/' :: room' ↔
      (server = server' ∧ room = room') ∨
      (∃ path, server = server' ++ '/' :: path ∧ room' = path ++ '/' :: room) ∨
      ∃ path, server' = server ++ '/' :: path ∧ room = path ++ '/' :: room' := by
  constructor
  · intro h
    rcases List.append_eq_append_iff.1 h with ⟨rest, hserver, hroom⟩ | ⟨rest, hserver, hroom⟩
    · cases rest with
      | nil =>
        refine .inl ⟨by simpa using hserver.symm, ?_⟩
        exact (List.cons.inj hroom).2
      | cons slash path =>
        obtain ⟨rfl, hpath⟩ := List.cons.inj hroom
        exact .inr (.inr ⟨path, hserver, hpath⟩)
    · cases rest with
      | nil =>
        refine .inl ⟨by simpa using hserver, ?_⟩
        exact (List.cons.inj hroom).2.symm
      | cons slash path =>
        obtain ⟨rfl, hpath⟩ := List.cons.inj hroom
        exact .inr (.inl ⟨path, hserver, hpath⟩)
  · rintro (⟨rfl, rfl⟩ | ⟨path, rfl, rfl⟩ | ⟨path, rfl, rfl⟩) <;> simp

/-- One address belongs to communities that are alike, and to no others. -/
theorem address_eq_iff : c.address = d.address ↔ c.Alike d := by
  constructor
  · intro h
    have hchars : c.canonicalBaseUrl.toList ++ '/' :: c.normalRoom.toList =
        d.canonicalBaseUrl.toList ++ '/' :: d.normalRoom.toList := by
      simpa [address] using congrArg String.toList h
    rcases append_slash_eq_iff.1 hchars with
      ⟨hserver, hroom⟩ | ⟨path, hserver, hroom⟩ | ⟨path, hserver, hroom⟩
    · exact .inl ⟨String.toList_inj.1 hserver, String.toList_inj.1 hroom⟩
    · refine .inr (.inl ⟨String.ofList path, String.toList_inj.1 ?_, String.toList_inj.1 ?_⟩)
      · simpa using hserver
      · simpa using hroom
    · refine .inr (.inr ⟨String.ofList path, String.toList_inj.1 ?_, String.toList_inj.1 ?_⟩)
      · simpa using hserver
      · simpa using hroom
  · rintro (⟨hserver, hroom⟩ | hshifts | hshifts)
    · rw [address, address, hserver, hroom]
    · exact hshifts.address_eq
    · exact hshifts.address_eq.symm

theorem Alike.samePlace (h : c.Alike d) (hc : '/' ∉ c.normalRoom.toList)
    (hd : '/' ∉ d.normalRoom.toList) : c.SamePlace d := by
  rcases h with hsame | ⟨path, -, hroom⟩ | ⟨path, -, hroom⟩
  · exact hsame
  · exact absurd (by simp [hroom]) hd
  · exact absurd (by simp [hroom]) hc

end Community

variable {c : CollectionKind}

/-- The community that a record is about, if it is about one. -/
def CollectionKind.community? : (c : CollectionKind) → c.Record → Option Community
  | conversations, .community mark => some mark.peer
  | groups, .community g => some g.community
  | _, _ => none

namespace CollectionKind

variable {record other : c.Record} {a b : Community}

/-- Records about communities have one key exactly if the communities are alike. -/
theorem keyOf_eq_iff (h : c.community? record = some a) (h' : c.community? other = some b) :
    c.keyOf record = c.keyOf other ↔ a.Alike b := by
  rw [← Community.address_eq_iff]
  cases c with
  | conversations =>
    cases record <;> cases h
    cases other <;> cases h'
    exact ⟨fun heq => ConversationKey.community.inj heq, congrArg ConversationKey.community⟩
  | groups =>
    cases record <;> cases h
    cases other <;> cases h'
    exact ⟨fun heq => UserGroupKey.community.inj heq, congrArg UserGroupKey.community⟩
  | contacts | members => cases h

theorem community?_of_keyOf_eq (h : c.community? record = some a)
    (hkey : c.keyOf other = c.keyOf record) : ∃ b, c.community? other = some b ∧ a.Alike b := by
  have hsome : ∃ b, c.community? other = some b := by
    cases c with
    | conversations | groups =>
      cases record <;> cases h
      cases other <;> first | exact ⟨_, rfl⟩ | nomatch hkey
    | contacts | members => cases h
  obtain ⟨b, hb⟩ := hsome
  exact ⟨b, hb, (keyOf_eq_iff h hb).1 hkey.symm⟩

end CollectionKind

namespace EntryChange

/-- The key under which a change is made. -/
def key : EntryChange c → c.Key
  | put record => c.keyOf record
  | erase key => key

/-- A change is made under the key of records about communities that are like this one. -/
def Meets (a : Community) (change : EntryChange c) : Prop :=
  ∃ record b, c.community? record = some b ∧ a.Alike b ∧ change.key = c.keyOf record

/-- A change that meets a community is made under the key of every record about it. -/
theorem Meets.key_eq {change : EntryChange c} {record : c.Record} {a : Community}
    (h : change.Meets a) (ha : c.community? record = some a) : change.key = c.keyOf record := by
  obtain ⟨other, b, hb, halike, hkey⟩ := h
  rw [hkey, (CollectionKind.keyOf_eq_iff ha hb).2 halike]

/-- Changes under other keys leave alone what is found under a key. -/
theorem foldl_of_ne {found : c.Key → Option c.Record} {key : c.Key}
    {changes : List (EntryChange c)} (h : ∀ change ∈ changes, key ≠ change.key) :
    changes.foldl perform found key = found key := by
  induction changes generalizing found with
  | nil => rfl
  | cons change changes ih =>
    obtain ⟨hne, hrest⟩ := List.forall_mem_cons.1 h
    rw [List.foldl_cons, ih hrest]
    cases change <;> exact if_neg hne

end EntryChange

namespace Config

variable {config : Config (.collection c)}

/-- Of two communities the one that is kept outlasts what is done about the other, unless they are
alike, and it is found in place of the other only if they are. -/
structure KeepsApart (config : Config (.collection c)) : Prop where
  outlasts : ∀ record a, c.community? record = some a → record ∈ config.records →
    ∀ actions, (∀ change ∈ config.along entryChanges actions, ¬ change.Meets a) →
      record ∈ (config.run actions).records
  set_other : ∀ record a, c.community? record = some a → record ∈ config.records →
    ∀ other b, c.community? other = some b →
      (record ∈ (config.set other).records ↔ (a.Alike b → record = other))
  erase_other : ∀ record a, c.community? record = some a → record ∈ config.records →
    ∀ other b, c.community? other = some b →
      (record ∈ (config.erase (c.keyOf other)).2.records ↔ ¬ a.Alike b)
  found : ∀ record other b, c.community? other = some b →
    config.get? (c.keyOf other) = some record → ∃ a, c.community? record = some a ∧ b.Alike a
  drafted : ∀ request key blank b draft, request.target = .ok (key, blank) →
    c.community? blank = some b → config.draft request = .ok draft →
      ∃ a, c.community? draft = some a ∧ b.Alike a

/-- What is kept about a community stays along a run in which no change meets it. -/
theorem mem_records_run (h : config.Reachable) {record : c.Record} {a : Community}
    (ha : c.community? record = some a) (hmem : record ∈ config.records)
    {actions : List (Action (.collection c))}
    (hapart : ∀ change ∈ config.along entryChanges actions, ¬ change.Meets a) :
    record ∈ (config.run actions).records := by
  have hne : ∀ change ∈ config.along entryChanges actions, c.keyOf record ≠ change.key := by
    intro change hchange hkey
    exact hapart change hchange ⟨record, a, ha, .refl a, hkey.symm⟩
  refine (mem_records_iff (ownKeys_of_reachable (h.run actions))).2 ?_
  rw [get?_run, EntryChange.foldl_of_ne hne]
  exact (mem_records_iff (ownKeys_of_reachable h)).1 hmem

theorem community?_of_get? (h : EntryChange.OwnKeys config.get?) {record other : c.Record}
    {b : Community} (hb : c.community? other = some b)
    (hget : config.get? (c.keyOf other) = some record) :
    ∃ a, c.community? record = some a ∧ b.Alike a :=
  CollectionKind.community?_of_keyOf_eq hb (h _ record hget)

theorem community?_of_draft (h : EntryChange.OwnKeys config.get?) {request : Request c}
    {key : c.Key} {blank draft : c.Record} {b : Community}
    (htarget : request.target = .ok (key, blank)) (hb : c.community? blank = some b)
    (hdraft : config.draft request = .ok draft) :
    ∃ a, c.community? draft = some a ∧ b.Alike a := by
  rw [draft_eq h, htarget] at hdraft
  obtain rfl : (config.get? key).getD blank = draft := Except.ok.inj hdraft
  obtain rfl : c.keyOf blank = key := Request.keyOf_target htarget
  cases hget : config.get? (c.keyOf blank) with
  | none => exact ⟨b, hb, .refl b⟩
  | some record => exact community?_of_get? h hb hget

theorem keepsApart (h : config.Reachable) : config.KeepsApart := by
  have hown := ownKeys_of_reachable h
  constructor
  case outlasts =>
    intro record a ha hmem actions hapart
    exact mem_records_run h ha hmem hapart
  case set_other =>
    intro record a ha hmem other b hb
    rw [mem_records_set hown, and_iff_right hmem, ne_eq, CollectionKind.keyOf_eq_iff ha hb,
      imp_iff_or_not]
  case erase_other =>
    intro record a ha hmem other b hb
    rw [mem_records_erase hown, and_iff_right hmem, ne_eq, CollectionKind.keyOf_eq_iff ha hb]
  case found =>
    intro record other b hb hget
    exact community?_of_get? hown hb hget
  case drafted =>
    intro request key blank b draft htarget hb hdraft
    exact community?_of_draft hown htarget hb hdraft

/-- Two communities have one address exactly if they are alike, and then they are the same place
unless one of their rooms has a slash. In whatever state a collection has come to be, communities
that are not alike stay apart. -/
theorem communities_told_apart :
    (∀ a b : Community, a.address = b.address ↔ a.Alike b) ∧
    (∀ a b : Community, a.address = b.address → '/' ∉ a.normalRoom.toList →
      '/' ∉ b.normalRoom.toList → a.SamePlace b) ∧
    ∀ {c : CollectionKind} {config : Config (.collection c)}, config.Reachable →
      config.KeepsApart :=
  ⟨fun _ _ => Community.address_eq_iff,
    fun _ _ h => (Community.address_eq_iff.1 h).samePlace, keepsApart⟩

theorem groups_told_apart :
    let lobby : Community := ⟨"HTTP://Host:80/", "Lobby", .replicate 32 0x2a⟩
    let other : Community := ⟨"http://host:443", "lobby", .replicate 32 0x2a⟩
    let record : UserGroup := .community { community := lobby }
    let start : Config .groups := { content := {} }
    let config := start.run [.edit (.set record), .markDumped]
    let delta : Delta UserGroupKey UserGroup :=
      { set := [], erase := [.group "lobby", .community "http://host"] }
    let actions : List (Action .groups) :=
      [.edit (.set (.community { community := other })),
        .merge [deltaMessage (c := .groups) "a" delta]]
    (create .groups "" = .ok start ∧ '/' ∉ lobby.normalRoom.toList ∧
      (∀ change ∈ config.along entryChanges actions, ¬ change.Meets lobby)) ∧
    ¬ lobby.Alike other ∧ config.KeepsApart ∧ record ∈ (config.run actions).records := by
  intro lobby other record start config delta actions
  have hcreate : create .groups "" = .ok start := rfl
  have hreach : config.Reachable := reachable_run hcreate _
  have hne : ¬ lobby.Alike other := fun h => by
    have haddress := (communities_told_apart.1 lobby other).2 h
    revert haddress
    decide
  have hkeys : ∀ change ∈ config.along entryChanges actions,
      change.key ≠ CollectionKind.groups.keyOf record := by
    decide +kernel
  have hrecord : CollectionKind.groups.community? record = some lobby := rfl
  have hchanges : ∀ change ∈ config.along entryChanges actions, ¬ change.Meets lobby :=
    fun change hchange hmeets => hkeys change hchange (hmeets.key_eq hrecord)
  have happart := communities_told_apart.2.2 hreach
  exact ⟨⟨hcreate, by decide, hchanges⟩, hne, happart,
    happart.outlasts record lobby hrecord (by decide) actions hchanges⟩

/-- A room of this name on the one server has the address of a room on the other. -/
theorem room_with_slash_collides :
    let lobby : Community := ⟨"http://host/a", "b", .replicate 32 0x2a⟩
    let annex : Community := ⟨"http://host", "a/b", .replicate 32 0⟩
    let start : Config .conversations := { content := {} }
    let config := start.set (.community { peer := lobby, lastRead := 7, unread := true })
    lobby.address = annex.address ∧ lobby.canonicalBaseUrl ≠ annex.canonicalBaseUrl ∧
      lobby.normalRoom ≠ annex.normalRoom ∧
      config.communityChatDraft annex.baseUrl annex.room annex.keyText =
        .ok { peer := lobby, lastRead := 7, unread := true } ∧
      (config.set (.community { peer := annex })).records = [.community { peer := annex }] :=
  ⟨by decide, by decide, by decide, rfl, rfl⟩

end Config
end SyncedConfig
