/-!
# Maps with ordered keys

A map is the list of its entries in ascending order of their keys. Maps with the same
entries are therefore equal, and the order of the list is the order in which a map is
written and walked through.
-/
namespace SyncedConfig

open Std

/-- A finite map whose entries are kept in ascending order of their keys. -/
structure KeyMap (κ α : Type) [Ord κ] where
  entries : List (κ × α) := []
  ascending : entries.Pairwise fun a b => compare a.1 b.1 = .lt := by exact .nil

namespace KeyMap

variable {κ α : Type} [Ord κ]

instance : Inhabited (KeyMap κ α) := ⟨{}⟩

instance [DecidableEq κ] [DecidableEq α] : DecidableEq (KeyMap κ α) := fun m n =>
  decidable_of_iff (m.entries = n.entries)
    ⟨fun h => by cases m; cases n; simp_all, fun h => h ▸ rfl⟩

def empty : KeyMap κ α := {}

/-- Puts an entry into ascending entries, in place of the one with its key if there is one. -/
def insertEntry (k : κ) (a : α) : List (κ × α) → List (κ × α)
  | [] => [(k, a)]
  | (k', a') :: rest =>
    match compare k k' with
    | .lt => (k, a) :: (k', a') :: rest
    | .eq => (k, a) :: rest
    | .gt => (k', a') :: insertEntry k a rest

def eraseEntry (k : κ) (entries : List (κ × α)) : List (κ × α) :=
  entries.filter fun e => compare k e.1 ≠ .eq

def get? (m : KeyMap κ α) (k : κ) : Option α :=
  (m.entries.find? fun e => compare k e.1 = .eq).map (·.2)

def contains (m : KeyMap κ α) (k : κ) : Bool := (m.get? k).isSome

def size (m : KeyMap κ α) : Nat := m.entries.length

def isEmpty (m : KeyMap κ α) : Bool := m.entries.isEmpty

def keys (m : KeyMap κ α) : List κ := m.entries.map (·.1)

def values (m : KeyMap κ α) : List α := m.entries.map (·.2)

theorem mem_insertEntry {k : κ} {a : α} {e : κ × α} {entries : List (κ × α)}
    (h : e ∈ insertEntry k a entries) : e = (k, a) ∨ e ∈ entries := by
  induction entries with
  | nil => simpa [insertEntry] using h
  | cons head rest ih =>
    obtain ⟨k', a'⟩ := head
    simp only [insertEntry] at h
    split at h
    · simpa using h
    · rcases List.mem_cons.1 h with rfl | h
      · exact .inl rfl
      · exact .inr (List.mem_cons_of_mem _ h)
    · rcases List.mem_cons.1 h with rfl | h
      · exact .inr (List.mem_cons_self ..)
      · exact (ih h).imp id (List.mem_cons_of_mem _)

theorem pairwise_insertEntry [TransOrd κ] {entries : List (κ × α)}
    (h : entries.Pairwise fun a b => compare a.1 b.1 = .lt) (k : κ) (a : α) :
    (insertEntry k a entries).Pairwise fun a b => compare a.1 b.1 = .lt := by
  induction entries with
  | nil => simp [insertEntry]
  | cons head rest ih =>
    obtain ⟨k', a'⟩ := head
    obtain ⟨hhead, hrest⟩ := List.pairwise_cons.1 h
    simp only [insertEntry]
    split
    next hk =>
      refine List.pairwise_cons.2 ⟨fun e he => ?_, h⟩
      rcases List.mem_cons.1 he with rfl | he
      · exact hk
      · exact TransCmp.lt_trans hk (hhead e he)
    next hk =>
      exact List.pairwise_cons.2
        ⟨fun e he => TransCmp.lt_of_eq_of_lt hk (hhead e he), hrest⟩
    next hk =>
      refine List.pairwise_cons.2 ⟨fun e he => ?_, ih hrest⟩
      rcases mem_insertEntry he with rfl | he
      · exact OrientedCmp.gt_iff_lt.1 hk
      · exact hhead e he

def insert [TransOrd κ] (m : KeyMap κ α) (k : κ) (a : α) : KeyMap κ α :=
  ⟨insertEntry k a m.entries, pairwise_insertEntry m.ascending k a⟩

def erase (m : KeyMap κ α) (k : κ) : KeyMap κ α :=
  ⟨eraseEntry k m.entries, m.ascending.filter _⟩

@[simp] theorem get?_empty (k : κ) : (empty : KeyMap κ α).get? k = none := rfl

theorem find?_insertEntry [TransOrd κ] (k j : κ) (a : α) (entries : List (κ × α)) :
    (insertEntry k a entries).find? (fun e => compare j e.1 = .eq) =
      if compare j k = .eq then some (k, a) else entries.find? fun e => compare j e.1 = .eq := by
  induction entries with
  | nil => by_cases hj : compare j k = .eq <;> simp [insertEntry, hj]
  | cons head rest ih =>
    obtain ⟨k', a'⟩ := head
    simp only [insertEntry]
    split
    next => by_cases hj : compare j k = .eq <;> simp [hj]
    next hk =>
      have h : compare j k' = compare j k := (TransCmp.congr_right hk).symm
      by_cases hj : compare j k = .eq <;> simp [h, hj]
    next hk =>
      by_cases hj : compare j k' = .eq
      · have h : compare j k ≠ .eq := fun h => by
          have := TransCmp.eq_trans (OrientedCmp.eq_symm h) hj
          simp_all
        simp [hj, h]
      · simp [hj, ih]

theorem get?_insert [TransOrd κ] (m : KeyMap κ α) (k j : κ) (a : α) :
    (m.insert k a).get? j = if compare j k = .eq then some a else m.get? j := by
  simp only [get?, insert, find?_insertEntry]
  split <;> rfl

theorem get?_erase [TransOrd κ] (m : KeyMap κ α) (k j : κ) :
    (m.erase k).get? j = if compare j k = .eq then none else m.get? j := by
  simp only [get?, erase, eraseEntry, List.find?_filter]
  split
  next hj =>
    have h : ∀ e : κ × α, compare k e.1 = compare j e.1 := fun e => (TransCmp.congr_left hj).symm
    simp [h]
  next hj =>
    congr 2
    funext e
    by_cases he : compare j e.1 = .eq
    · have h : compare k e.1 ≠ .eq := fun h => hj (TransCmp.eq_trans he (OrientedCmp.eq_symm h))
      simp [he, h]
    · simp [he]

end KeyMap
end SyncedConfig
