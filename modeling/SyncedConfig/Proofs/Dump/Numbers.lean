import SyncedConfig.Proofs.Batch
import SyncedConfig.Proofs.Collection.LastWrite
import SyncedConfig.Proofs.DeltaFormat
import SyncedConfig.Proofs.Dump.Faithful
import SyncedConfig.Proofs.Spelling.Numbers

/-!
# Numbers from delta to dump

A number in a delta comes through a merge unchanged: the dump has exactly this number, or the
delta is refused and nothing has changed. Nothing is brought into the range on the way.
-/
namespace SyncedConfig

open Json (IsList IsObject)
open Json.Reader

variable {ρ σ : Type}

def Json.member? (name : String) : Json → Option Json
  | .object members => members.lookup name
  | _ => none

/-- A number of a record, by its name in a dump, with the record for any value of the number. -/
structure NumberField (ρ : Type) where
  sort : NumberSort
  name : String
  make : sort.Value → ρ

namespace NumberField

def map (f : ρ → σ) (field : NumberField ρ) : NumberField σ where
  sort := field.sort
  name := field.name
  make b := f (field.make b)

/-- The document of a record has the number under its name. -/
def ShownIn (field : NumberField ρ) (document : ρ → Json) : Prop :=
  ∀ b, (document (field.make b)).member? field.name = some (.integer (field.sort.shown b))

end NumberField

def Profile.numbers (p : Profile) : List (NumberField Profile) :=
  [⟨.int32, "nts_priority", fun x => { p with notePriority := x }⟩,
    ⟨.duration, "nts_expiry", fun x => { p with noteExpiry := some x }⟩]

def GroupDetails.numbers (d : GroupDetails) : List (NumberField GroupDetails) :=
  [⟨.duration, "expiry_timer", fun x => { d with expiryTimer := some x }⟩,
    ⟨.int64, "created", fun x => { d with created := some x }⟩,
    ⟨.int64, "delete_before", fun x => { d with deleteBefore := some x }⟩,
    ⟨.int64, "delete_attach_before", fun x => { d with deleteAttachBefore := some x }⟩]

def Contact.numbers (c : Contact) : List (NumberField Contact) :=
  [⟨.int32, "priority", fun x => { c with priority := x }⟩,
    ⟨.int64, "mute_until", fun x => { c with muteUntil := some x }⟩,
    ⟨.duration, "exp_timer", fun x => { c with timer := x }⟩,
    ⟨.int64, "created", fun x => { c with created := x }⟩]

def Member.numbers (m : Member) : List (NumberField Member) :=
  [⟨.int32, "invite_status", fun x => { m with inviteStatus := x }⟩,
    ⟨.int32, "promotion_status", fun x => { m with promotionStatus := x }⟩,
    ⟨.int32, "removed_status", fun x => { m with removedStatus := x }⟩]

def Conversation.numbers : Conversation → List (NumberField Conversation)
  | oneToOne m => [⟨.int64, "last_read", fun x => oneToOne { m with lastRead := x }⟩]
  | group m => [⟨.int64, "last_read", fun x => group { m with lastRead := x }⟩]
  | legacyGroup m => [⟨.int64, "last_read", fun x => legacyGroup { m with lastRead := x }⟩]
  | community m => [⟨.int64, "last_read", fun x => community { m with lastRead := x }⟩]

def Membership.numbers (m : Membership) : List (NumberField Membership) :=
  [⟨.int32, "priority", fun x => { m with priority := x }⟩,
    ⟨.int64, "joined_at", fun x => { m with joinedAt := x }⟩,
    ⟨.int64, "mute_until", fun x => { m with muteUntil := some x }⟩]

def UserGroup.numbers : UserGroup → List (NumberField UserGroup)
  | group g => g.membership.numbers.map (·.map fun m => group { g with membership := m })
  | legacyGroup g =>
    ⟨.duration, "disappearing_timer", fun x => legacyGroup { g with timer := x }⟩ ::
      g.membership.numbers.map (·.map fun m => legacyGroup { g with membership := m })
  | community g => g.membership.numbers.map (·.map fun m => community { g with membership := m })

theorem Profile.numbers_shown (p : Profile) : ∀ field ∈ p.numbers, field.ShownIn document := by
  simp only [numbers, List.forall_mem_cons]
  exact ⟨fun _ => rfl, fun _ => rfl, nofun⟩

theorem Contact.numbers_shown (c : Contact) : ∀ field ∈ c.numbers, field.ShownIn document := by
  simp only [numbers, List.forall_mem_cons]
  exact ⟨fun _ => rfl, fun _ => rfl, fun _ => rfl, fun _ => rfl, nofun⟩

theorem Member.numbers_shown (m : Member) : ∀ field ∈ m.numbers, field.ShownIn document := by
  simp only [numbers, List.forall_mem_cons]
  exact ⟨fun _ => rfl, fun _ => rfl, fun _ => rfl, nofun⟩

theorem Conversation.numbers_shown (c : Conversation) :
    ∀ field ∈ c.numbers, field.ShownIn document := by
  cases c <;> exact List.forall_mem_singleton.2 fun _ => rfl

theorem Membership.numbers_shown (m : Membership) :
    ∀ field ∈ m.numbers, field.ShownIn document := by
  simp only [numbers, List.forall_mem_cons]
  exact ⟨fun _ => rfl, fun _ => rfl, fun _ => rfl, nofun⟩

theorem GroupInfo.numbers_shown (g : GroupInfo) :
    ∀ field ∈ g.details.numbers, field.ShownIn fun details => { g with details }.document := by
  simp only [GroupDetails.numbers, List.forall_mem_cons]
  exact ⟨fun _ => rfl, fun _ => rfl, fun _ => rfl, fun _ => rfl, nofun⟩

/-- The members of a membership come first in the document of a group. -/
theorem UserGroup.membership_shown {m : Membership} {wrap : Membership → UserGroup}
    (hwrap : ∀ m, ∃ more, (wrap m).document = .object (m.members ++ more)) :
    ∀ field ∈ m.numbers.map (·.map wrap), field.ShownIn document := by
  refine List.forall_mem_map.2 fun field hfield b => ?_
  obtain ⟨more, hdocument⟩ := hwrap (field.make b)
  have hshown : (field.make b).members.lookup field.name = _ := m.numbers_shown field hfield b
  change Json.member? field.name (wrap (field.make b)).document = _
  rw [hdocument, Json.member?, List.lookup_append, hshown]
  rfl

theorem UserGroup.numbers_shown (g : UserGroup) : ∀ field ∈ g.numbers, field.ShownIn document := by
  cases g with
  | group g => exact membership_shown fun m => ⟨_, congrArg Json.object (List.append_assoc ..)⟩
  | community g => exact membership_shown fun m => ⟨_, congrArg Json.object (List.append_assoc ..)⟩
  | legacyGroup g =>
    refine List.forall_mem_cons.2 ⟨fun _ => rfl, ?_⟩
    exact membership_shown fun m => ⟨_, congrArg Json.object (List.append_assoc ..)⟩

namespace Kind

/-- What a delta has numbers in. -/
abbrev Part : Kind → Type
  | profile => Profile
  | collection c => c.Record
  | info => GroupDetails

def numbers : (k : Kind) → k.Part → List (NumberField k.Part)
  | profile, p => p.numbers
  | collection .conversations, c => Conversation.numbers c
  | collection .groups, g => UserGroup.numbers g
  | collection .contacts, c => Contact.numbers c
  | collection .members, m => Member.numbers m
  | info, d => d.numbers

/-- The delta puts the part, and neither puts another one in its place nor erases it. -/
def Puts : (k : Kind) → k.Change → k.Part → Prop
  | profile, p, part => p = part
  | collection c, d, record => Delta.IsLast c.keyOf d.set record ∧ c.keyOf record ∉ d.erase
  | info, details, part => details = part

/-- The document of a part. The details of a group stand beside its id. -/
def partDocument : (k : Kind) → k.Content → k.Part → Json
  | profile, _, p => p.document
  | collection c, _, record => c.recordDocument record
  | info, g, details => { g with details }.document

/-- In a document of the content, a part of it has this document. A record has the place that its
key has among all keys. -/
inductive Place : (k : Kind) → k.Content → k.Part → (whole document : Json) → Prop
  | profile (p : Profile) (document : Json) : Place .profile p p document document
  | record {c : CollectionKind} {records : c.Records} {record : c.Record} {items : List Json}
      {document : Json} (i : Nat) (hentry : records.entries[i]? = some (c.keyOf record, record))
      (hitem : items[i]? = some document) :
      Place (.collection c) records record (.list items) document
  | info (g : GroupInfo) (document : Json) : Place .info g g.details document document

theorem numbers_shown : (k : Kind) → (content : k.Content) → (part : k.Part) →
    ∀ field ∈ k.numbers part, field.ShownIn (k.partDocument content)
  | profile, _, p => p.numbers_shown
  | collection .conversations, _, c => Conversation.numbers_shown c
  | collection .groups, _, g => UserGroup.numbers_shown g
  | collection .contacts, _, c => Contact.numbers_shown c
  | collection .members, _, m => Member.numbers_shown m
  | info, g, details => GroupInfo.numbers_shown { g with details }

theorem place_of_puts : (k : Kind) → {change : k.Change} → {part : k.Part} → k.Puts change part →
    (content : k.Content) →
      Place k (k.apply content change) part (k.document (k.apply content change))
        (k.partDocument content part)
  | .profile, p, _, rfl, _ => .profile p _
  | .collection c, d, record, ⟨hlast, herase⟩, records => by
    -- entries and elements of the dump are in one order
    classical
    have hget := Delta.get?_apply_of_isLast hlast herase records
    obtain ⟨i, hi⟩ := List.mem_iff_getElem?.1 (KeyMap.get?_eq_some_iff.1 hget)
    refine .record i hi ?_
    rw [KeyMap.values, List.map_map, List.getElem?_map]
    exact congrArg (Option.map (c.recordDocument ·.2)) hi
  | .info, details, _, rfl, g => .info { g with details } _

end Kind

namespace Config

variable {k : Kind}

/-- Both dumps of a config show a number under a name, at the place of a part. -/
def Shows (c : Config k) (part : k.Part) (name : String) (z : Int) : Prop :=
  ∃ whole document, Json.parse (Utf8.ofString (Handle.config k c).dump) = .ok whole ∧
    Json.parse (Utf8.ofString (Handle.config k c).dumpPretty) = .ok whole ∧
    k.Place c.content part whole document ∧ document.member? name = some (.integer z)

/-- A delta that puts a number is followed by a dump that shows it. -/
theorem shows_absorb {change : k.Change} {part : k.Part} {field : NumberField k.Part}
    {b : field.sort.Value} (hfield : field ∈ k.numbers part)
    (hputs : k.Puts change (field.make b)) (c : Config k) (hash : String) :
    (c.absorb [(hash, change)]).Shows (field.make b) field.name (field.sort.shown b) := by
  let handle := Handle.config k (c.absorb [(hash, change)])
  exact ⟨_, _, handle.parse_dump, handle.parse_dumpPretty, k.place_of_puts hputs c.content,
    k.numbers_shown c.content part field hfield b⟩

/-- Let a delta write a number as the value of a field in a part that it puts, and let it be merged
alone under a new hash. It is accepted if and only if the number fits, and then the dump shows
exactly this number. Else it is refused because it cannot be read, and nothing has changed. -/
theorem number_shown_or_refused (c : Config k) {part : k.Part} {field : NumberField k.Part}
    (hfield : field ∈ k.numbers part) {z : Int} {value octets : Bytes}
    (hvalue : field.sort.Writes z value) {change : field.sort.Value → k.Change}
    (hgap : Schema.Gap field.sort.schema value k.changeSchema change octets)
    (hputs : ∀ b, k.Puts (change b) (field.make b)) {before behind : Bytes}
    (hbefore : Blank before) (hbehind : Blank behind) {hash : String} (hhash : hash ≠ "")
    (hnew : hash ∉ c.ledger.hashes) :
    let merged := c.merge [⟨hash, before ++ (octets ++ behind)⟩]
    ((∃ accepted, merged.1 = .ok accepted) ↔ field.sort.Fits z) ∧
    (field.sort.Fits z → merged.1 = .ok [hash] ∧
      ∃ b, field.sort.shown b = z ∧ merged.2.Shows (field.make b) field.name z) ∧
    (¬ field.sort.Fits z → (∃ fault, merged.1 = .error (.decode fault)) ∧ merged.2 = c) := by
  intro merged
  have hs := k.changeSchema_wellFormed
  have hdata : before ++ (octets ++ behind) ≠ [] := by
    obtain ⟨b, rest, rfl, -⟩ := hgap.opens hvalue.opens.1
    simp
  have hmerge : merged = _ := c.merge_new hdata hhash hnew
  have hfits (h : field.sort.Fits z) : merged.1 = .ok [hash] ∧
      ∃ b, field.sort.shown b = z ∧ merged.2.Shows (field.make b) field.name z := by
    obtain ⟨b, rfl, hdecode⟩ := NumberSort.decode_of_fits hs hvalue hgap hbefore hbehind h
    rw [hmerge, hdecode]
    exact ⟨rfl, b, rfl, shows_absorb hfield (hputs b) c hash⟩
  have hout (h : ¬ field.sort.Fits z) :
      (∃ fault, merged.1 = .error (.decode fault)) ∧ merged.2 = c := by
    obtain ⟨fault, hdecode⟩ := NumberSort.decode_of_not_fits hs hvalue hgap hbefore hbehind h
    rw [hmerge, hdecode]
    exact ⟨⟨fault, rfl⟩, rfl⟩
  refine ⟨⟨?_, fun h => ⟨[hash], (hfits h).1⟩⟩, hfits, hout⟩
  rintro ⟨accepted, haccepted⟩
  by_contra h
  obtain ⟨⟨fault, hrefused⟩, -⟩ := hout h
  rw [hrefused] at haccepted
  cases haccepted

theorem gap_lastRead {value mark record set octets : Bytes}
    (hmark : IsObject [("last_read", value), ("unread", Json.boolOctets true),
      ("session_id", Utf8.encode (Json.quote "05"))] mark)
    (hrecord : IsObject [("one_to_one", mark)] record) (hset : IsList [record] set)
    (hoctets : IsList [set] octets) :
    Schema.Gap (.word .int64) value Kind.conversations.changeSchema
      (fun x => { set := [.oneToOne ⟨"05", x, true⟩] }) octets := by
  have hmember : Schema.Gap (.word .int64) value Conversation.oneToOneSchema
      (fun x => ⟨"05", x, true⟩) mark := by
    have hat : (Fields.field "session_id" .text none <| .field "last_read" (.word .int64) none <|
        .field "unread" .flag none .done).At "last_read" (.word .int64)
          fun x => ("05", x, true, ()) := .tail "05" (by decide) (.head (true, ()))
    have hobject : IsObject ([] ++ ("last_read", value) :: [("unread", Json.boolOctets true),
      ("session_id", Utf8.encode (Json.quote "05"))]) mark := hmark
    have hnames : ["last_read", "unread", "session_id"].Perm
        ["session_id", "last_read", "unread"] := by decide
    refine .member .here hat (fun x => ?_) hobject fun _ => rfl
    refine Fields.named_of_perm _ (by decide) _ hnames ?_
    refine List.forall_mem_cons.2 ⟨fun hne => absurd rfl hne, ?_⟩
    refine List.forall_mem_cons.2 ⟨fun _ => ?_, List.forall_mem_singleton.2 fun _ => ?_⟩
    · exact Schema.accepts .flag trivial true _ rfl
    · exact Schema.accepts .text trivial "05" _ (Json.spellsText_quote "05")
  have hconversation : Schema.Gap (.word .int64) value Conversation.schema
      (fun x => .oneToOne ⟨"05", x, true⟩) record := .shape hmember .here hrecord
  have hitems : Schema.Gap (.word .int64) value (.sequence Conversation.schema)
      (fun x => [.oneToOne ⟨"05", x, true⟩]) set := .item hconversation .nil .nil hset
  have hrest : Fields.ReadsInOrder
      (.field "erase" (.sequence ConversationKey.schema) (some []) .done) ([], ()) [] := ⟨rfl, rfl⟩
  exact .row hitems (.head hrest) hoctets fun _ => rfl

/-- The greatest integer of 64 bits is shown, and the next one is refused. -/
theorem lastRead_at_the_limit :
    let c : Config .conversations := { content := KeyMap.empty }
    let mark (x : Int64) : Conversation := .oneToOne ⟨"05", x, true⟩
    let field : NumberField Conversation := ⟨.int64, "last_read", mark⟩
    let members (z : Int) : List (String × Json) :=
      [("last_read", .integer z), ("unread", .bool true), ("session_id", .text "05")]
    let delta (z : Int) : Json := .list [.list [.object [("one_to_one", .object (members z))]]]
    let message (z : Int) : Message := ⟨"a", [0x20] ++ ((delta z).octets .compact 0 ++ [0x0a])⟩
    let shown := c.merge [message 9223372036854775807]
    let refused := c.merge [message 9223372036854775808]
    field ∈ Kind.conversations.numbers (mark 0) ∧
    (shown.1 = .ok ["a"] ∧ ∃ x, field.sort.shown x = 9223372036854775807 ∧
      shown.2.Shows (mark x) "last_read" 9223372036854775807) ∧
    (∃ fault, refused.1 = .error (.decode fault)) ∧ refused.2 = c := by
  intro c mark field members delta message shown refused
  have hfield : field ∈ Kind.conversations.numbers (mark 0) := List.mem_singleton_self _
  have hputs (x : Int64) : Kind.conversations.Puts { set := [mark x] } (field.make x) :=
    ⟨⟨[], [], rfl, nofun⟩, List.not_mem_nil⟩
  have hblank : Json.Layout.compact.IsBlank := Json.Layout.compact_isBlank
  have hgap (z : Int) : Schema.Gap (.word .int64) (NumberSort.digits z)
      Kind.conversations.changeSchema (fun x => { set := [mark x] })
      ((delta z).octets .compact 0) :=
    gap_lastRead (Json.isObject_octets hblank 3 (members z))
      (Json.isObject_octets hblank 2 [("one_to_one", .object (members z))])
      (Json.isList_octets hblank 1 [.object _]) (Json.isList_octets hblank 0 [.list _])
  have hspace : Blank [0x20] := by simp [Blank, isBlank]
  have hbreak : Blank [0x0a] := by simp [Blank, isBlank]
  have hmerge (z : Int) := number_shown_or_refused c hfield (.int64 z) (hgap z) hputs hspace hbreak
    (by decide : "a" ≠ "") List.not_mem_nil
  obtain ⟨-, hshown, -⟩ := hmerge 9223372036854775807
  obtain ⟨-, -, hrefused⟩ := hmerge 9223372036854775808
  exact ⟨hfield, hshown ⟨by decide, by decide⟩, hrefused fun h => absurd h.2 (by decide)⟩

end Config
end SyncedConfig
