import SyncedConfig.Proofs.Dump.Faithful
import SyncedConfig.Proofs.Dump.Octets
import SyncedConfig.Proofs.KeyMap

/-!
# What a dump shows

A dump leaves out the nanoseconds of durations, the key of a picture without an address, and
how the server and the room of a community are spelled. What is left of a content is what it
shows: two configs of a kind have the same dump exactly if they show the same.
-/
namespace SyncedConfig

namespace Json

variable {s t : Option String} {b c : Option Bool} {m n : Option Int64} {x y : Bytes}

@[simp] theorem ofText?_inj : ofText? s = ofText? t ↔ s = t := by
  cases s <;> cases t <;> simp [ofText?]

@[simp] theorem ofBool?_inj : ofBool? b = ofBool? c ↔ b = c := by
  cases b <;> cases c <;> simp [ofBool?]

@[simp] theorem ofInt64?_inj : ofInt64? m = ofInt64? n ↔ m = n := by
  cases m <;> cases n <;> simp [ofInt64?, Int64.toInt_inj]

@[simp] theorem ofBytes_inj : ofBytes x = ofBytes y ↔ x = y := by
  simp [ofBytes, String.ofList_inj, Base64.encode_inj]

end Json

@[simp] theorem NotificationMode.token_inj {a b : NotificationMode} :
    a.token = b.token ↔ a = b := by
  cases a <;> cases b <;> simp [token, tags]

@[simp] theorem ExpirationMode.token_inj {a b : ExpirationMode} : a.token = b.token ↔ a = b := by
  cases a <;> cases b <;> simp [token, tags]

namespace Duration

def whole (d : Duration) : Duration := { zero with seconds := d.seconds }

@[simp] theorem document_eq_iff {a b : Duration} : a.document = b.document ↔ a.whole = b.whole := by
  have hseconds : (a.seconds.toNat : Int) = b.seconds.toNat ↔ a.seconds = b.seconds :=
    Int.ofNat_inj.trans UInt64.toNat_inj
  simp [document, whole, hseconds]

theorem document_ne_null (d : Duration) : d.document ≠ .null := by simp [document]

end Duration

@[simp] theorem Json.ofDuration?_eq_iff {a b : Option Duration} :
    ofDuration? a = ofDuration? b ↔ a.map Duration.whole = b.map Duration.whole := by
  cases a <;> cases b <;>
    simp [ofDuration?, Duration.document_ne_null, (Duration.document_ne_null _).symm]

namespace Picture

/-- A picture without an address is none, whatever its key. -/
def shown (p : Picture) : Picture := if p.isEmpty then {} else p

@[simp] theorem document_eq_iff {a b : Picture} : a.document = b.document ↔ a.shown = b.shown := by
  obtain ⟨url, key⟩ := a
  obtain ⟨url', key'⟩ := b
  by_cases h : url = "" <;> by_cases h' : url' = "" <;>
    simp [document, shown, isEmpty, h, h', Ne.symm]

end Picture

namespace Community

def shown (c : Community) : String × Vector UInt8 32 := (c.address, c.key)

theorem keyText_inj {a b : Community} : a.keyText = b.keyText ↔ a.key = b.key := by
  simp [keyText, String.ofList_inj, Hex.encode_inj, Vector.toList_inj]

end Community

/-- The members of a membership come first, and there are always as many. -/
@[simp] theorem Membership.members_append_inj {a b : Membership} {l m : List (String × Json)} :
    a.members ++ l = b.members ++ m ↔ a = b ∧ l = m := by
  have hmembers : a.members = b.members ↔ a = b := by
    cases a
    cases b
    simp [members, Int32.toInt_inj, Int64.toInt_inj]
  have hlength : a.members.length = b.members.length := by simp [members]
  constructor
  · intro h
    obtain ⟨hab, hlm⟩ := List.append_inj h hlength
    exact ⟨hmembers.1 hab, hlm⟩
  · rintro ⟨rfl, rfl⟩
    rfl

def Contact.shown (c : Contact) : Contact :=
  { c with picture := c.picture.shown, timer := c.timer.whole }

theorem Contact.document_eq_iff {a b : Contact} : a.document = b.document ↔ a.shown = b.shown := by
  simp [document, shown, Int32.toInt_inj, Int64.toInt_inj]

def Member.shown (m : Member) : Member := { m with picture := m.picture.shown }

theorem Member.document_eq_iff {a b : Member} : a.document = b.document ↔ a.shown = b.shown := by
  simp [document, shown, Int32.toInt_inj]

def Profile.shown (p : Profile) : Profile :=
  { p with picture := p.picture.shown, noteExpiry := p.noteExpiry.map Duration.whole }

theorem Profile.document_eq_iff {a b : Profile} : a.document = b.document ↔ a.shown = b.shown := by
  simp [document, shown, Int32.toInt_inj]

def GroupInfo.shown (g : GroupInfo) : GroupInfo :=
  { g with details := { g.details with
      picture := g.details.picture.shown
      expiryTimer := g.details.expiryTimer.map Duration.whole } }

theorem GroupInfo.document_eq_iff {a b : GroupInfo} :
    a.document = b.document ↔ a.shown = b.shown := by
  simp [document, shown]

inductive ShownConversation
  | oneToOne (mark : ReadMark String)
  | group (mark : ReadMark String)
  | legacyGroup (mark : ReadMark String)
  | community (mark : ReadMark (String × Vector UInt8 32))

def Conversation.shown : Conversation → ShownConversation
  | oneToOne mark => .oneToOne mark
  | group mark => .group mark
  | legacyGroup mark => .legacyGroup mark
  | community mark => .community ⟨mark.peer.shown, mark.lastRead, mark.unread⟩

theorem Conversation.document_eq_iff {a b : Conversation} :
    a.document = b.document ↔ a.shown = b.shown := by
  rcases a with ⟨_, _, _⟩ | ⟨_, _, _⟩ | ⟨_, _, _⟩ | ⟨_, _, _⟩ <;>
    rcases b with ⟨_, _, _⟩ | ⟨_, _, _⟩ | ⟨_, _, _⟩ | ⟨_, _, _⟩ <;>
      simp [document, members, sort, shown, ReadMark.members, Community.members, Community.shown,
        Community.keyText_inj, Int64.toInt_inj, and_assoc]

inductive ShownGroup
  | group (g : ClosedGroup)
  | legacyGroup (g : LegacyGroup)
  | community (membership : Membership) (community : String × Vector UInt8 32)

def UserGroup.shown : UserGroup → ShownGroup
  | group g => .group g
  | legacyGroup g => .legacyGroup { g with timer := g.timer.whole }
  | community g => .community g.membership g.community.shown

theorem LegacyGroup.people_inj {a b : LegacyGroup} :
    a.people.entries.map person = b.people.entries.map person ↔ a.people = b.people := by
  have hperson : ∀ e f, person e = person f → e = f := by
    rintro ⟨id, admin⟩ ⟨id', admin'⟩
    simp [person]
  exact (List.map_inj_right hperson).trans ⟨KeyMap.eq_of_entries, congrArg KeyMap.entries⟩

theorem UserGroup.document_eq_iff {a b : UserGroup} :
    a.document = b.document ↔ a.shown = b.shown := by
  rcases a with ⟨_, _, _, _⟩ | a | a <;> rcases b with ⟨_, _, _, _⟩ | b | b <;>
    simp [document, members, sort, shown, ClosedGroup.members, LegacyGroup.members,
      LegacyGroup.people_inj, JoinedCommunity.members, Community.members, Community.shown,
      Community.keyText_inj]

namespace CollectionKind

/-- What a dump shows of a record. -/
abbrev Shown : CollectionKind → Type
  | conversations => ShownConversation
  | groups => ShownGroup
  | contacts => Contact
  | members => Member

def shown : (c : CollectionKind) → c.Record → c.Shown
  | conversations => Conversation.shown
  | groups => UserGroup.shown
  | contacts => Contact.shown
  | members => Member.shown

theorem recordDocument_eq_iff (c : CollectionKind) {a b : c.Record} :
    c.recordDocument a = c.recordDocument b ↔ c.shown a = c.shown b := by
  cases c with
  | conversations => exact Conversation.document_eq_iff
  | groups => exact UserGroup.document_eq_iff
  | contacts => exact Contact.document_eq_iff
  | members => exact Member.document_eq_iff

end CollectionKind

theorem map_eq_map_congr {α β γ : Type} {f : α → β} {g : α → γ}
    (h : ∀ a b, f a = f b ↔ g a = g b) {l m : List α} :
    l.map f = m.map f ↔ l.map g = m.map g := by
  induction l generalizing m with
  | nil => cases m <;> simp
  | cons a l ih =>
    cases m with
    | nil => simp
    | cons b m => simp only [List.map_cons, List.cons.injEq, h, ih]

namespace Kind

/-- What a dump shows of a content: of a collection, its records in order. -/
abbrev Shown : Kind → Type
  | profile => Profile
  | collection c => List c.Shown
  | info => GroupInfo

def shown : (k : Kind) → k.Content → k.Shown
  | profile, p => p.shown
  | collection c, records => records.values.map c.shown
  | info, g => g.shown

theorem document_eq_iff : (k : Kind) → {a b : k.Content} →
    (k.document a = k.document b ↔ k.shown a = k.shown b)
  | profile, _, _ => Profile.document_eq_iff
  | collection c, _, _ => by
    simp only [document, Json.list.injEq]
    exact map_eq_map_congr fun _ _ => c.recordDocument_eq_iff
  | info, _, _ => GroupInfo.document_eq_iff

end Kind

/-- Two configs of a kind have the same dump if and only if they show the same: the same records
in the same order, or the same single record, up to the nanoseconds of durations, the key of a
picture without an address, and the spelling of the server and the room of a community. -/
theorem Handle.dump_eq_iff {k : Kind} (a b : Config k) :
    (config k a).dump = (config k b).dump ↔ k.shown a.content = k.shown b.content := by
  have ha := (config k a).readable_document
  have hb := (config k b).readable_document
  calc (config k a).dump = (config k b).dump
      ↔ k.document a.content = k.document b.content := Json.compact_inj ha hb
    _ ↔ k.shown a.content = k.shown b.content := k.document_eq_iff

end SyncedConfig
