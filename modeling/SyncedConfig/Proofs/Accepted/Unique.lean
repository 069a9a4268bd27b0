import SyncedConfig.Proofs.Accepted.Values
import SyncedConfig.Proofs.Spelling.Rows

/-!
# Parts of data are found in one way only

A value is passed over no further than it goes, so that a reader may keep its octets. It keeps those
of all members of an object or all items of a list, and since it can read them in one way only, they
are found in one way only.
-/
namespace SyncedConfig

namespace Json

open Reader

namespace Reader

/-- Passes over a value and keeps its octets. -/
def kept : Reader Bytes := fun input =>
  match skipValue input with
  | .error fault => .error fault
  | .ok (_, rest) => .ok ((dropBlanks input).take ((dropBlanks input).length - rest.length), rest)

def keptMember (name : String) (seen : List (String × Bytes)) : Reader (List (String × Bytes)) := do
  colon
  return seen ++ [(name, ← kept)]

def keptMembers : Reader (List (String × Bytes)) := do
  let _ ← valueStart
  inObject (members keptMember [])

def keptItems : Reader (List Bytes) := do
  let _ ← valueStart
  inList (items kept)

theorem reads_kept {octets : Bytes} (h : IsLooseValue octets) : Reads kept octets octets := by
  intro blanks rest hblanks hrest
  obtain ⟨b, more, hoctets, hb, -⟩ := h.opens
  have hdrop : dropBlanks (blanks ++ (octets ++ rest)) = octets ++ rest := by
    rw [dropBlanks_append hblanks, hoctets, List.cons_append, dropBlanks_cons hb]
  rw [kept, reads_skipValue h blanks rest hblanks hrest, hdrop]
  simp

theorem takes_keptMember {members : List (String × Bytes)}
    (h : ∀ m ∈ members, IsLooseValue m.2) (seen : List (String × Bytes)) :
    Takes keptMember members seen (seen ++ members) := by
  induction members generalizing seen with
  | nil =>
    rw [List.append_nil]
    exact .nil seen
  | cons m members ih =>
    obtain ⟨hhead, htail⟩ := List.forall_mem_cons.1 h
    have hread := (reads_kept hhead).map fun octets => seen ++ [(m.1, octets)]
    have hbehind := ih htail (seen ++ [m])
    rw [List.append_assoc, List.singleton_append] at hbehind
    exact .cons (fun behind hb => reads_colon hb hread) hbehind

end Reader

variable {octets data : Bytes}

theorem IsObject.reads {members : List (String × Bytes)} (h : IsObject members octets)
    (hloose : ∀ m ∈ members, IsLooseValue m.2) : Reads keptMembers octets members :=
  reads_object h (takes_keptMember hloose []) rfl fun _ _ hread => hread

theorem IsList.reads {items : List Bytes} (h : IsList items octets)
    (hloose : ∀ item ∈ items, IsLooseValue item) : Reads keptItems octets items := by
  have hitems : List.Forall₂ (ReadsItem kept) items items := List.forall₂_same.2 fun item hitem =>
    ⟨(hloose item hitem).opens, reads_kept (hloose item hitem)⟩
  exact reads_list h rfl fun row rest hrow => ⟨[], blank_nil, items_row hrow hitems rest⟩

theorem Reader.IsPadded.unique {other : Bytes} (h : IsPadded octets data)
    (hloose : IsLooseValue octets) (h' : IsPadded other data) (hloose' : IsLooseValue other) :
    octets = other := by
  have hdecode {octets : Bytes} (h : IsPadded octets data) (hloose : IsLooseValue octets) :
      kept.decode data = .ok octets := by
    obtain ⟨before, behind, hbefore, hbehind, rfl⟩ := h
    exact (reads_kept hloose).decode_padded hbefore hbehind
  exact Except.ok.inj ((hdecode h hloose).symm.trans (hdecode h' hloose'))

theorem IsObject.unique {members others : List (String × Bytes)} (h : IsObject members octets)
    (hloose : ∀ m ∈ members, IsLooseValue m.2) (h' : IsObject others octets)
    (hloose' : ∀ m ∈ others, IsLooseValue m.2) : members = others :=
  Except.ok.inj ((h.reads hloose).decode.symm.trans (h'.reads hloose').decode)

theorem IsList.unique {items others : List Bytes} (h : IsList items octets)
    (hloose : ∀ item ∈ items, IsLooseValue item) (h' : IsList others octets)
    (hloose' : ∀ item ∈ others, IsLooseValue item) : items = others :=
  Except.ok.inj ((h.reads hloose).decode.symm.trans (h'.reads hloose').decode)

theorem IsObject.not_isList {members : List (String × Bytes)} (h : IsObject members octets)
    (items : List Bytes) : ¬ IsList items octets := by
  intro hlist
  have hhead := h.head?.symm.trans hlist.head?
  exact absurd hhead (by decide)

end Json

open Json (IsLooseValue)

variable {name : String} {place : Nat} {value other octets : Bytes}

theorem IsListWith.isLooseValue (h : IsListWith place value octets) :
    IsLooseValue octets ∧ IsLooseValue value := by
  obtain ⟨items, hlist, hloose, hvalue⟩ := h
  exact ⟨hlist.isLooseValue hloose, hloose _ (List.mem_of_getElem? hvalue)⟩

theorem IsListWith.unique (h : IsListWith place value octets)
    (h' : IsListWith place other octets) : value = other := by
  obtain ⟨items, hlist, hloose, hvalue⟩ := h
  obtain ⟨items', hlist', hloose', hvalue'⟩ := h'
  obtain rfl := hlist.unique hloose hlist' hloose'
  exact Option.some.inj (hvalue.symm.trans hvalue')

theorem IsRecordWith.isLooseValue (h : IsRecordWith name place value octets) :
    IsLooseValue octets ∧ IsLooseValue value := by
  obtain ⟨members, hobject, hloose, hvalue⟩ | hlist := h
  · have hmem : (name, value) ∈ members := mem_named_iff.1 (hvalue ▸ List.mem_singleton_self value)
    exact ⟨hobject.isLooseValue hloose, hloose _ hmem⟩
  · exact hlist.isLooseValue

theorem IsRecordWith.unique (h : IsRecordWith name place value octets)
    (h' : IsRecordWith name place other octets) : value = other := by
  obtain ⟨members, hobject, hloose, hvalue⟩ | hlist := h <;>
  obtain ⟨members', hobject', hloose', hvalue'⟩ | hlist' := h'
  · obtain rfl := hobject.unique hloose hobject' hloose'
    exact List.singleton_inj.1 (hvalue.symm.trans hvalue')
  · obtain ⟨items, hitems, -⟩ := hlist'
    exact absurd hitems (hobject.not_isList items)
  · obtain ⟨items, hitems, -⟩ := hlist
    exact absurd hitems (hobject'.not_isList items)
  · exact hlist.unique hlist'

end SyncedConfig
