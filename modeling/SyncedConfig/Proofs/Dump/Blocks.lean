import Mathlib.Data.List.Nodup
import SyncedConfig.Proofs.Collection.Lookup
import SyncedConfig.Proofs.Dump.Faithful
import SyncedConfig.Proofs.Text.Order

/-!
# The order of a dumped collection

The elements of a dumped collection stand in blocks, one for each sort of records, and the ids in
a block ascend. This is the order of the keys, since each record is kept under its own key. So no
two elements of a sort have the same id, and the same records are dumped in one way only.
-/
namespace SyncedConfig

open Std

def Json.textOf? (name : String) : Json → Option String
  | object members =>
    match members.lookup name with
    | some (text s) => some s
    | _ => none
  | _ => none

/-- A block of a dump: what its elements have as their member `type`, if they have one, and which
member has their id. -/
structure Block where
  type? : Option String
  idName : String

namespace Block

def holds (b : Block) (element : Json) : Bool := element.textOf? "type" = b.type?

def id? (b : Block) (element : Json) : Option String := element.textOf? b.idName

end Block

section Blocks

variable {α β : Type}

theorem eq_filter_append {p : α → Bool} {l : List α} (h : l.Pairwise fun x y => p y → p x) :
    l = l.filter p ++ l.filter fun x => !p x := by
  induction l with
  | nil => rfl
  | cons x l ih =>
    obtain ⟨hx, hl⟩ := List.pairwise_cons.1 h
    by_cases hpx : p x = true
    · simpa [hpx] using ih hl
    · have hnone : ∀ y ∈ l, ¬ p y = true := fun y hy hpy => hpx (hx y hy hpy)
      have hleft : l.filter p = [] := List.filter_eq_nil_iff.2 hnone
      have hright : (l.filter fun x => !p x) = l := List.filter_eq_self.2 (by simpa using hnone)
      simp [hpx, hleft, hright]

/-- If each element has one place among some blocks and the places ascend, then a list is its
blocks one after the other. -/
theorem eq_flatMap_filter {p : β → α → Bool} {blocks : List β} {l : List α}
    (hplaced : ∀ x ∈ l, ∃ b ∈ blocks, p b x)
    (hone : blocks.Pairwise fun b d => ∀ x, p b x → p d x = false)
    (hascend : l.Pairwise fun x y => blocks.findIdx (p · x) ≤ blocks.findIdx (p · y)) :
    l = blocks.flatMap fun b => l.filter (p b) := by
  induction blocks generalizing l with
  | nil =>
    cases l with
    | nil => rfl
    | cons x l => simpa using hplaced x
  | cons b blocks ih =>
    obtain ⟨hb, hone⟩ := List.pairwise_cons.1 hone
    have hfirst : l.Pairwise fun x y => p b y → p b x := by
      refine hascend.imp fun {x y} hle hy => ?_
      by_cases hx : p b x
      · exact hx
      · simp [List.findIdx_cons, hx, hy] at hle
    let rest := l.filter fun x => !p b x
    have hrest : ∀ x ∈ rest, x ∈ l ∧ p b x = false := by simp [rest]
    have hblocks : rest = blocks.flatMap fun d => rest.filter (p d) := by
      apply ih
      · intro x hx
        obtain ⟨hxl, hbx⟩ := hrest x hx
        simpa [hbx] using hplaced x hxl
      · exact hone
      · refine (hascend.filter _).imp_of_mem fun {x y} hx hy hle => ?_
        simpa [List.findIdx_cons, (hrest x hx).2, (hrest y hy).2] using hle
    have hsame : ∀ d ∈ blocks, rest.filter (p d) = l.filter (p d) := by
      intro d hd
      rw [List.filter_filter]
      refine List.filter_congr fun x _ => ?_
      cases hbx : p b x with
      | false => simp
      | true => simp [hb d hd x hbx]
    calc l = l.filter (p b) ++ rest := eq_filter_append hfirst
      _ = l.filter (p b) ++ blocks.flatMap fun d => rest.filter (p d) := by rw [← hblocks]
      _ = (b :: blocks).flatMap fun d => l.filter (p d) := by
        rw [List.flatMap_cons]
        congr 1
        exact List.flatMap_congr hsame

end Blocks

theorem compareLex_eq_lt {κ : Type} {rank : κ → Nat} {id : κ → String} {j k : κ}
    (h : compareLex (compareOn rank) (compareOn id) j k = .lt) :
    rank j < rank k ∨ rank j = rank k ∧ id j < id k := by
  rcases Ordering.then_eq_lt.1 h with hrank | ⟨hrank, hid⟩
  · exact .inl (Nat.compare_eq_lt.1 hrank)
  · exact .inr ⟨Nat.compare_eq_eq.1 hrank, compareOfLessAndEq_eq_lt.1 hid⟩

namespace CollectionKind

def blocks : CollectionKind → List Block
  | conversations =>
    [⟨some "one_to_one", "session_id"⟩, ⟨some "community", "url"⟩, ⟨some "group", "id"⟩,
      ⟨some "legacy_group", "id"⟩]
  | groups => [⟨some "group", "id"⟩, ⟨some "community", "url"⟩, ⟨some "legacy_group", "session_id"⟩]
  | contacts | members => [⟨none, "session_id"⟩]

def rank : (c : CollectionKind) → c.Key → Nat
  | conversations => ConversationKey.rank
  | groups => UserGroupKey.rank
  | contacts | members => fun _ => 0

/-- What a key is among those of its sort. -/
def idOf : (c : CollectionKind) → c.Key → String
  | conversations => ConversationKey.id
  | groups => UserGroupKey.id
  | contacts | members => id

variable (c : CollectionKind)

theorem types_nodup : (c.blocks.map (·.type?)).Nodup := by cases c <;> decide

/-- A dumped record is in the block of the sort of its key, and its id is what its key is there. -/
theorem recordDocument_shows (record : c.Record) :
    ∃ b, c.blocks[c.rank (c.keyOf record)]? = some b ∧ b.holds (c.recordDocument record) ∧
      b.id? (c.recordDocument record) = some (c.idOf (c.keyOf record)) := by
  cases c with
  | conversations => cases record <;> exact ⟨_, rfl, rfl, rfl⟩
  | groups => cases record <;> exact ⟨_, rfl, rfl, rfl⟩
  | contacts => exact ⟨_, rfl, rfl, rfl⟩
  | members => exact ⟨_, rfl, rfl, rfl⟩

theorem compare_eq_lt {j k : c.Key} (h : compare j k = .lt) :
    c.rank j < c.rank k ∨ c.rank j = c.rank k ∧ c.idOf j < c.idOf k := by
  cases c with
  | conversations => exact compareLex_eq_lt h
  | groups => exact compareLex_eq_lt h
  | contacts => exact .inr ⟨rfl, compareOfLessAndEq_eq_lt.1 h⟩
  | members => exact .inr ⟨rfl, compareOfLessAndEq_eq_lt.1 h⟩

variable {c}

theorem eq_of_holds {b d : Block} (hb : b ∈ c.blocks) (hd : d ∈ c.blocks) {element : Json}
    (h : b.holds element) (h' : d.holds element) : b = d := by
  have htype : b.type? = d.type? := (of_decide_eq_true h).symm.trans (of_decide_eq_true h')
  exact List.inj_on_of_nodup_map c.types_nodup hb hd htype

variable (c)

/-- No element is in two blocks. -/
theorem blocks_disjoint :
    c.blocks.Pairwise fun b d => ∀ element, b.holds element → d.holds element = false := by
  have hne : c.blocks.Pairwise fun b d => b.type? ≠ d.type? := List.pairwise_map.1 c.types_nodup
  refine hne.imp fun {b d} hne element hb => ?_
  simp_all [Block.holds]

variable {c}

theorem findIdx_blocks (record : c.Record) :
    c.blocks.findIdx (·.holds (c.recordDocument record)) = c.rank (c.keyOf record) := by
  obtain ⟨b, hget, hholds, -⟩ := c.recordDocument_shows record
  obtain ⟨hlt, rfl⟩ := List.getElem?_eq_some_iff.1 hget
  refine (List.findIdx_eq hlt).2 ⟨hholds, fun i hi => ?_⟩
  have hdisjoint := List.pairwise_iff_getElem.1 c.blocks_disjoint i _ (Nat.lt_trans hi hlt) hlt hi
  by_cases h : c.blocks[i].holds (c.recordDocument record) = true
  · rw [hdisjoint _ h] at hholds
    cases hholds
  · exact Bool.eq_false_iff.2 h

theorem id?_of_holds {b : Block} (hb : b ∈ c.blocks) {record : c.Record}
    (h : b.holds (c.recordDocument record)) :
    b.id? (c.recordDocument record) = some (c.idOf (c.keyOf record)) := by
  obtain ⟨d, hget, hholds, hid⟩ := c.recordDocument_shows record
  rw [eq_of_holds hb (List.mem_of_getElem? hget) h hholds, hid]

theorem idOf_lt_of_holds {b : Block} {r s : c.Record} (hr : b.holds (c.recordDocument r))
    (hs : b.holds (c.recordDocument s)) (h : compare (c.keyOf r) (c.keyOf s) = .lt) :
    c.idOf (c.keyOf r) < c.idOf (c.keyOf s) := by
  have htype : (c.recordDocument r).textOf? "type" = (c.recordDocument s).textOf? "type" :=
    (of_decide_eq_true hr).trans (of_decide_eq_true hs).symm
  have hrank : c.rank (c.keyOf r) = c.rank (c.keyOf s) := by
    rw [← findIdx_blocks, ← findIdx_blocks]
    simp only [Block.holds, htype]
  rcases c.compare_eq_lt h with hlt | ⟨-, hlt⟩
  · exact absurd hrank (Nat.ne_of_lt hlt)
  · exact hlt

end CollectionKind

namespace Config

variable {c : CollectionKind} {config : Config (.collection c)}

def elements (config : Config (.collection c)) : List Json := config.records.map c.recordDocument

def inBlock (config : Config (.collection c)) (b : Block) : List Json :=
  config.elements.filter b.holds

def blockSizes (config : Config (.collection c)) : List Nat :=
  c.blocks.map fun b => (config.inBlock b).length

theorem elements_eq_blocks (h : EntryChange.OwnKeys config.get?) :
    config.elements = c.blocks.flatMap config.inBlock := by
  apply eq_flatMap_filter
  · intro element hmem
    obtain ⟨record, -, rfl⟩ := List.mem_map.1 hmem
    obtain ⟨b, hget, hholds, -⟩ := c.recordDocument_shows record
    exact ⟨b, List.mem_of_getElem? hget, hholds⟩
  · exact c.blocks_disjoint
  · refine List.pairwise_map.2 ((records_ascend h).imp fun {r s} hlt => ?_)
    rw [CollectionKind.findIdx_blocks, CollectionKind.findIdx_blocks]
    rcases c.compare_eq_lt hlt with hrank | ⟨hrank, -⟩
    · exact Nat.le_of_lt hrank
    · exact Nat.le_of_eq hrank

theorem inBlock_eq (b : Block) :
    config.inBlock b =
      (config.records.filter fun r => b.holds (c.recordDocument r)).map c.recordDocument :=
  List.filter_map

theorem id?_inBlock {b : Block} (hb : b ∈ c.blocks) :
    (config.inBlock b).map b.id? =
      ((config.records.filter fun r => b.holds (c.recordDocument r)).map
        fun r => c.idOf (c.keyOf r)).map some := by
  rw [inBlock_eq, List.map_map, List.map_map]
  refine List.map_congr_left fun r hr => ?_
  exact CollectionKind.id?_of_holds hb (List.mem_filter.1 hr).2

/-- What is said of a dump in order: it is a list with as many elements as there are records, and
these are the elements of the blocks, one block after the other. In a block the octets of the ids
ascend, and so no two elements of a block have the same id. -/
structure DumpInOrder (config : Config (.collection c)) : Prop where
  parse_dump :
    Json.parse (Utf8.ofString (Handle.config _ config).dump) = .ok (.list config.elements)
  parse_dumpPretty :
    Json.parse (Utf8.ofString (Handle.config _ config).dumpPretty) = .ok (.list config.elements)
  length_eq : config.elements.length = config.size
  blocks_eq : config.elements = c.blocks.flatMap config.inBlock
  ids_ascend : ∀ b ∈ c.blocks, ∃ ids : List String, (config.inBlock b).map b.id? = ids.map some ∧
    (ids.map Utf8.ofString).Pairwise (· < ·)
  ids_differ : config.elements.Pairwise fun e f =>
    ∀ b ∈ c.blocks, b.holds e → b.holds f → b.id? e ≠ b.id? f

theorem dumpInOrder (h : EntryChange.OwnKeys config.get?) : config.DumpInOrder where
  parse_dump := Json.parse_compact (Handle.config _ config).readable_document
  parse_dumpPretty := Json.parse_pretty (Handle.config _ config).readable_document
  length_eq := by simp [elements, records, size, KeyMap.values, KeyMap.size]
  blocks_eq := elements_eq_blocks h
  ids_ascend := by
    intro b hb
    refine ⟨_, id?_inBlock hb, ?_⟩
    refine List.pairwise_map.2 (List.pairwise_map.2 ?_)
    refine ((records_ascend h).filter _).imp_of_mem fun {r s} hr hs hlt => ?_
    apply Utf8.ofString_lt
    exact CollectionKind.idOf_lt_of_holds (List.mem_filter.1 hr).2 (List.mem_filter.1 hs).2 hlt
  ids_differ := by
    refine List.pairwise_map.2 ((records_ascend h).imp fun {r s} hlt b hb hr hs heq => ?_)
    rw [CollectionKind.id?_of_holds hb hr, CollectionKind.id?_of_holds hb hs] at heq
    have hid := CollectionKind.idOf_lt_of_holds hr hs hlt
    rw [Option.some.inj heq] at hid
    exact String.lt_irrefl _ hid

theorem length_inBlock {b : Block} {p : Conversation → Bool} (h : ∀ r, b.holds r.document = p r)
    (chats : Config .conversations) : (chats.inBlock b).length = chats.count p := by
  have hp : (fun r : Conversation => b.holds r.document) = p := funext h
  rw [inBlock_eq, List.length_map]
  exact congrArg (fun p => (chats.records.filter p).length) hp

/-- The sizes of the blocks of dumped conversations are the numbers of conversations by sort. -/
theorem blockSizes_conversations (chats : Config .conversations) :
    chats.blockSizes =
      [chats.sizeOneToOne, chats.sizeCommunities, chats.sizeGroups, chats.sizeLegacyGroups] := by
  simp only [blockSizes, CollectionKind.blocks, List.map_cons, List.map_nil, List.cons.injEq,
    and_true]
  refine ⟨length_inBlock ?_ chats, length_inBlock ?_ chats, length_inBlock ?_ chats,
    length_inBlock ?_ chats⟩ <;>
  · intro r
    cases r <;> rfl

/-- Whatever has been put, erased and merged, a collection is dumped in order. The sizes of the
blocks of conversations are their numbers by sort, which therefore add up to the number of all
of them. Collections of a kind with the same records have the same dumps, in whichever ways they
came to have them. -/
theorem collections_dumped_in_order :
    (∀ {c : CollectionKind} {config : Config (.collection c)}, config.Reachable →
      config.DumpInOrder) ∧
    (∀ {chats : Config .conversations}, chats.Reachable →
      chats.blockSizes =
        [chats.sizeOneToOne, chats.sizeCommunities, chats.sizeGroups, chats.sizeLegacyGroups] ∧
      chats.sizeOneToOne + chats.sizeCommunities + chats.sizeGroups + chats.sizeLegacyGroups =
        chats.size) ∧
    ∀ {c : CollectionKind} {a b : Config (.collection c)}, a.Reachable → b.Reachable →
      (∀ r, r ∈ a.records ↔ r ∈ b.records) →
      (Handle.config _ a).dump = (Handle.config _ b).dump ∧
      (Handle.config _ a).dumpPretty = (Handle.config _ b).dumpPretty := by
  refine ⟨fun h => dumpInOrder (ownKeys_of_reachable h), ?_, ?_⟩
  · intro chats h
    have hordered := dumpInOrder (ownKeys_of_reachable h)
    have hsum : chats.blockSizes.sum = chats.size := by
      rw [blockSizes, ← List.length_flatMap, ← hordered.blocks_eq, hordered.length_eq]
    rw [blockSizes_conversations] at hsum
    refine ⟨chats.blockSizes_conversations, ?_⟩
    simpa [Nat.add_assoc] using hsum
  · intro c a b ha hb hsame
    have hcontent : a.content = b.content :=
      content_eq_of_records (ownKeys_of_reachable ha) (ownKeys_of_reachable hb) hsame
    have hdocument : a.document = b.document := congrArg (Kind.collection c).document hcontent
    exact ⟨congrArg Json.compact hdocument, congrArg Json.pretty hdocument⟩

theorem conversations_dumped_in_order :
    let start : Config .conversations := { content := {} }
    let a := start.run [.edit (.set (.legacyGroup { peer := "a" })),
      .edit (.set (.oneToOne { peer := "z" })), .edit (.set (.oneToOne { peer := "é" }))]
    let b := start.run [.edit (.set (.oneToOne { peer := "é" })),
      .edit (.set (.group { peer := "b" })), .edit (.set (.oneToOne { peer := "z" })),
      .edit (.erase (.group "b")), .edit (.set (.legacyGroup { peer := "a" }))]
    (a.Reachable ∧ b.Reachable ∧ ∀ r, r ∈ a.records ↔ r ∈ b.records) ∧
      a.records.map (·.key) = [.oneToOne "z", .oneToOne "é", .legacyGroup "a"] ∧
      a.DumpInOrder ∧ a.blockSizes = [2, 0, 0, 1] ∧
      (Handle.config _ a).dump = (Handle.config _ b).dump := by
  intro start a b
  have hstart : create .conversations "" = .ok start := rfl
  have ha : a.Reachable := reachable_run hstart _
  have hb : b.Reachable := reachable_run hstart _
  have hrecords : a.records = b.records := by decide
  have hsame : ∀ r, r ∈ a.records ↔ r ∈ b.records := fun r => hrecords ▸ Iff.rfl
  obtain ⟨hordered, hsizes, hdumps⟩ := collections_dumped_in_order
  exact ⟨⟨ha, hb, hsame⟩, by decide, hordered ha, (hsizes ha).1, (hdumps ha hb hsame).1⟩

end Config
end SyncedConfig
