import SyncedConfig.Host.Handle
import SyncedConfig.Proofs.Reading.Document

/-!
# Dumps are read back

The document of a config has integers of 64 bits for its only numbers, no two members of one
name in an object, and few brackets inside each other. Hence each of its dumps is parsed back
to it. This does not depend on what its texts are: with any other text at any place the
document is read back as well, and so a text cannot pass for anything but itself.
-/
namespace SyncedConfig

namespace Json

section readable

variable (n : Nat)

@[simp] theorem readable_null : null.Readable n := by cases n <;> trivial

@[simp] theorem readable_bool (b : Bool) : (bool b).Readable n := by cases n <;> trivial

@[simp] theorem readable_text (s : String) : (text s).Readable n := by cases n <;> trivial

theorem readable_integer {i : Int} (hlow : -0x8000000000000000 ≤ i)
    (hhigh : i ≤ 0xffffffffffffffff) : (integer i).Readable n := by
  cases n <;> exact ⟨hlow, hhigh⟩

@[simp] theorem readable_list (items : List Json) :
    (list items).Readable (n + 1) ↔ ∀ item ∈ items, item.Readable n := Iff.rfl

@[simp] theorem readable_object (members : List (String × Json)) :
    (object members).Readable (n + 1) ↔
      (members.map (·.1)).Nodup ∧ ∀ member ∈ members, member.2.Readable n := Iff.rfl

@[simp] theorem readable_int32 (x : Int32) : (integer x.toInt).Readable n := by
  have hleast := Int32.le_toInt x
  have hgreatest := Int32.toInt_lt x
  exact readable_integer n (by omega) (by omega)

@[simp] theorem readable_int64 (x : Int64) : (integer x.toInt).Readable n := by
  have hleast := Int64.le_toInt x
  have hgreatest := Int64.toInt_lt x
  exact readable_integer n (by omega) (by omega)

@[simp] theorem readable_duration (d : Duration) : d.document.Readable n := by
  have hseconds := d.seconds.toNat_lt
  exact readable_integer n (by omega) (by omega)

@[simp] theorem readable_ofBytes (data : Bytes) : (ofBytes data).Readable n := readable_text n _

@[simp] theorem readable_ofText? (s : Option String) : (ofText? s).Readable n := by
  cases s <;> simp [ofText?]

@[simp] theorem readable_ofBool? (b : Option Bool) : (ofBool? b).Readable n := by
  cases b <;> simp [ofBool?]

@[simp] theorem readable_ofInt64? (x : Option Int64) : (ofInt64? x).Readable n := by
  cases x <;> simp [ofInt64?]

@[simp] theorem readable_ofDuration? (d : Option Duration) : (ofDuration? d).Readable n := by
  cases d <;> simp [ofDuration?]

end readable

end Json

section records

variable (n : Nat)

@[simp] theorem Picture.readable_document (p : Picture) : p.document.Readable (n + 1) := by
  unfold document
  split <;> simp

theorem Contact.readable_document (c : Contact) : c.document.Readable (n + 2) := by
  simp [document]

theorem Member.readable_document (m : Member) : m.document.Readable (n + 2) := by
  simp [document]

theorem Profile.readable_document (p : Profile) : p.document.Readable (n + 2) := by
  simp [document]

theorem GroupInfo.readable_document (g : GroupInfo) : g.document.Readable (n + 2) := by
  simp [document]

theorem Conversation.readable_document (c : Conversation) : c.document.Readable (n + 1) := by
  cases c <;> simp [document, members, sort, ReadMark.members, Community.members]

theorem LegacyGroup.readable_people (g : LegacyGroup) :
    (Json.list (g.people.entries.map person)).Readable (n + 2) := by
  simp only [Json.readable_list, List.forall_mem_map]
  intro entry _
  simp [person]

theorem UserGroup.readable_document (g : UserGroup) : g.document.Readable (n + 3) := by
  cases g with
  | group g => simp [document, members, sort, ClosedGroup.members, Membership.members]
  | legacyGroup g =>
    simp [document, members, sort, LegacyGroup.members, Membership.members,
      LegacyGroup.readable_people, -Json.readable_list]
  | community g =>
    simp [document, members, sort, JoinedCommunity.members, Membership.members, Community.members]

end records

theorem CollectionKind.readable_recordDocument (n : Nat) :
    (c : CollectionKind) → (record : c.Record) → (c.recordDocument record).Readable (n + 3)
  | conversations, record => Conversation.readable_document (n + 2) record
  | groups, record => UserGroup.readable_document n record
  | contacts, record => Contact.readable_document (n + 1) record
  | members, record => Member.readable_document (n + 1) record

/-- Brackets nest no deeper than four. -/
theorem Kind.readable_document (n : Nat) :
    (k : Kind) → (content : k.Content) → (k.document content).Readable (n + 4)
  | profile, p => p.readable_document (n + 2)
  | collection c, records => by
    simp only [document, Json.readable_list, List.forall_mem_map]
    exact fun record _ => c.readable_recordDocument n record
  | info, g => g.readable_document (n + 2)

namespace Json

mutual

/-- The document with other texts in the places of its own. A place is the list of the numbers
of elements and members that lead there, the last one in front. -/
def retext (f : List Nat → String → String) (place : List Nat) : Json → Json
  | text s => text (f place s)
  | list items => list (retextItems f place 0 items)
  | object members => object (retextMembers f place 0 members)
  | null => null
  | bool b => bool b
  | integer n => integer n
  | float x => float x

def retextItems (f : List Nat → String → String) (place : List Nat) (i : Nat) :
    List Json → List Json
  | [] => []
  | item :: items => item.retext f (i :: place) :: retextItems f place (i + 1) items

def retextMembers (f : List Nat → String → String) (place : List Nat) (i : Nat) :
    List (String × Json) → List (String × Json)
  | [] => []
  | (name, value) :: members =>
    (name, value.retext f (i :: place)) :: retextMembers f place (i + 1) members

end

variable {f : List Nat → String → String} {place : List Nat}

theorem mem_retextItems {item : Json} {i : Nat} {items : List Json}
    (h : item ∈ retextItems f place i items) :
    ∃ item' ∈ items, ∃ place', item = item'.retext f place' := by
  induction items generalizing i with
  | nil => simp [retextItems] at h
  | cons head items ih =>
    rw [retextItems, List.mem_cons] at h
    rcases h with rfl | h
    · exact ⟨head, List.mem_cons_self .., _, rfl⟩
    · obtain ⟨item', hmem, heq⟩ := ih h
      exact ⟨item', List.mem_cons_of_mem _ hmem, heq⟩

theorem mem_retextMembers {member : String × Json} {i : Nat} {members : List (String × Json)}
    (h : member ∈ retextMembers f place i members) :
    ∃ member' ∈ members, ∃ place', member.2 = member'.2.retext f place' := by
  induction members generalizing i with
  | nil => simp [retextMembers] at h
  | cons head members ih =>
    obtain ⟨name, value⟩ := head
    rw [retextMembers, List.mem_cons] at h
    rcases h with rfl | h
    · exact ⟨(name, value), List.mem_cons_self .., _, rfl⟩
    · obtain ⟨member', hmem, heq⟩ := ih h
      exact ⟨member', List.mem_cons_of_mem _ hmem, heq⟩

theorem retextMembers_names (i : Nat) (members : List (String × Json)) :
    (retextMembers f place i members).map (·.1) = members.map (·.1) := by
  induction members generalizing i with
  | nil => rw [retextMembers]
  | cons member members ih =>
    obtain ⟨name, value⟩ := member
    rw [retextMembers, List.map_cons, List.map_cons, ih]

/-- Whether a document can be read back does not depend on its texts. -/
theorem Readable.retext (f : List Nat → String → String) {n : Nat} {j : Json}
    (h : j.Readable n) (place : List Nat) : (j.retext f place).Readable n := by
  induction n generalizing j place with
  | zero => cases j <;> simp_all [Json.retext, Readable]
  | succ n ih =>
    cases j with
    | list items =>
      rw [Json.retext, readable_list]
      intro item hitem
      obtain ⟨item', hmem, place', rfl⟩ := mem_retextItems hitem
      exact ih (h item' hmem) place'
    | object members =>
      rw [Json.retext, readable_object, retextMembers_names]
      refine ⟨h.1, fun member hmember => ?_⟩
      obtain ⟨member', hmem, place', heq⟩ := mem_retextMembers hmember
      exact heq ▸ ih (h.2 member' hmem) place'
    | _ => simp_all [Json.retext, Readable]

end Json

theorem Handle.readable_document (h : Handle) : h.document.Readable Json.Reader.nestingLimit := by
  cases h with
  | config k c => exact k.readable_document 123 c.content
  | foreign name => exact (Json.readable_object 126 []).2 (by simp)

theorem Handle.parse_dump (h : Handle) : Json.parse (Utf8.ofString h.dump) = .ok h.document :=
  Json.parse_compact h.readable_document

theorem Handle.parse_dumpPretty (h : Handle) :
    Json.parse (Utf8.ofString h.dumpPretty) = .ok h.document :=
  Json.parse_pretty h.readable_document

/-- Compact or pretty, the dump of a config is parsed to its document with nothing left over.
Whatever other texts are put at any places of the document, it keeps its names, its elements
and all other values, and is parsed back in both forms. -/
theorem Handle.dump_faithful (h : Handle) :
    Json.parse (Utf8.ofString h.dump) = .ok h.document ∧
    Json.parse (Utf8.ofString h.dumpPretty) = .ok h.document ∧
    ∀ f, let other := h.document.retext f []
      Json.parse (Utf8.ofString other.compact) = .ok other ∧
      Json.parse (Utf8.ofString other.pretty) = .ok other := by
  refine ⟨h.parse_dump, h.parse_dumpPretty, fun f => ?_⟩
  have other := h.readable_document.retext f []
  exact ⟨Json.parse_compact other, Json.parse_pretty other⟩

end SyncedConfig
