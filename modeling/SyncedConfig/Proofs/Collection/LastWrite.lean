import Mathlib.Data.List.Find
import Mathlib.Data.List.Nodup
import SyncedConfig.Delta
import SyncedConfig.Proofs.KeyMap

/-!
# The last write wins

A delta decides what is found under the keys that it touches: nothing under those that it erases,
and under any other one the last of its records with that key. Of several deltas the last one that
touches a key decides. So a delta that comes twice in a row counts once, and neither the order of
the erased keys nor that of records with different keys matters.
-/
namespace SyncedConfig.Delta

open Std

variable {κ α : Type} {key : α → κ} {k : κ}

/-- A delta touches the keys that it erases and those of the records that it puts. -/
def Touches (key : α → κ) (d : Delta κ α) (k : κ) : Prop := k ∈ d.erase ∨ ∃ r ∈ d.set, key r = k

/-- Some record is the last one in a list with its key. -/
def IsLast (key : α → κ) (records : List α) (r : α) : Prop :=
  ∃ early late, records = early ++ r :: late ∧ ∀ s ∈ late, key s ≠ key r

def applyAll [Ord κ] [TransOrd κ] (key : α → κ) (deltas : List (Delta κ α)) (m : KeyMap κ α) :
    KeyMap κ α :=
  deltas.foldl (fun m d => d.apply key m) m

/-- What is found under a key behind some deltas, given the map before them: what was found there
if none of them touches the key, and else what the last one that touches it decides. -/
inductive LastWrite [Ord κ] (key : α → κ) (m : KeyMap κ α) (deltas : List (Delta κ α)) (k : κ) :
    Option α → Prop
  | untouched (hnone : ∀ d ∈ deltas, ¬ d.Touches key k) : LastWrite key m deltas k (m.get? k)
  | erased (before : List (Delta κ α)) (d : Delta κ α) (after : List (Delta κ α))
      (hsplit : deltas = before ++ d :: after) (hafter : ∀ e ∈ after, ¬ e.Touches key k)
      (herase : k ∈ d.erase) : LastWrite key m deltas k none
  | put (before : List (Delta κ α)) (d : Delta κ α) (after : List (Delta κ α))
      (hsplit : deltas = before ++ d :: after) (hafter : ∀ e ∈ after, ¬ e.Touches key k)
      (herase : k ∉ d.erase) (r : α) (hlast : IsLast key d.set r) (hkey : key r = k) :
      LastWrite key m deltas k (some r)

section records

variable [DecidableEq κ] {records others : List α} {r : α}

/-- The last record with a key is the first one from the end. -/
theorem isLast_of_find?_reverse (h : (records.reverse.find? fun s => key s = k) = some r) :
    IsLast key records r ∧ key r = k := by
  obtain ⟨hkey, late, early, hsplit, hlate⟩ := List.find?_eq_some_iff_append.1 h
  have hkey : key r = k := of_decide_eq_true hkey
  refine ⟨⟨early.reverse, late.reverse, ?_, ?_⟩, hkey⟩
  · rw [← List.reverse_reverse records, hsplit]
    simp
  · intro s hs
    have hne : key s ≠ k := by simpa using hlate s (List.mem_reverse.1 hs)
    rwa [hkey]

theorem ne_of_find?_reverse (h : (records.reverse.find? fun s => key s = k) = none)
    (hr : r ∈ records) : key r ≠ k := by
  simpa using List.find?_eq_none.1 h r (List.mem_reverse.2 hr)

/-- Where no two records have one key, each is found in whatever order they are. -/
theorem find?_reverse_of_perm (h : records.Perm others) (hdistinct : (records.map key).Nodup)
    (k : κ) :
    (records.reverse.find? fun r => key r = k) = others.reverse.find? fun r => key r = k := by
  have hperm : records.reverse.Perm others.reverse :=
    records.reverse_perm.trans (h.trans others.reverse_perm.symm)
  refine List.find?_eq_find?_of_perm hperm ?_
  rintro r ⟨hr, hrkey⟩ s ⟨hs, hskey⟩
  have hsame : key r = key s := (of_decide_eq_true hrkey).trans (of_decide_eq_true hskey).symm
  exact List.inj_on_of_nodup_map hdistinct (List.mem_reverse.1 hr) (List.mem_reverse.1 hs) hsame

end records

variable [Ord κ] [TransOrd κ] [LawfulEqOrd κ]

section lookup

variable [DecidableEq κ]

theorem get?_foldl_put (key : α → κ) (records : List α) (m : KeyMap κ α) (k : κ) :
    (records.foldl (fun m r => m.insert (key r) r) m).get? k =
      (records.reverse.find? fun r => key r = k).or (m.get? k) := by
  induction records generalizing m with
  | nil => rfl
  | cons r records ih =>
    rw [List.foldl_cons, ih, List.reverse_cons, List.find?_append, Option.or_assoc,
      KeyMap.get?_insert]
    by_cases h : key r = k
    · simp [h]
    · simp [h, Ne.symm h]

theorem get?_foldl_erase (keys : List κ) (m : KeyMap κ α) (k : κ) :
    (keys.foldl KeyMap.erase m).get? k = if k ∈ keys then none else m.get? k := by
  induction keys generalizing m with
  | nil => rfl
  | cons erased keys ih =>
    rw [List.foldl_cons, ih, KeyMap.get?_erase]
    by_cases h : k = erased <;> simp [h]

/-- A delta decides by its erased keys first, then by its last record with a key, and leaves what
is found under any other key. -/
theorem get?_apply (key : α → κ) (d : Delta κ α) (m : KeyMap κ α) (k : κ) :
    (d.apply key m).get? k =
      if k ∈ d.erase then none
      else (d.set.reverse.find? fun r => key r = k).or (m.get? k) := by
  rw [apply, get?_foldl_erase, get?_foldl_put]

/-- The last record with a key is found under it unless the key is erased. -/
theorem get?_apply_of_isLast {d : Delta κ α} {r : α} (h : IsLast key d.set r)
    (herase : key r ∉ d.erase) (m : KeyMap κ α) : (d.apply key m).get? (key r) = some r := by
  obtain ⟨early, late, hsplit, hlate⟩ := h
  have hfind : (d.set.reverse.find? fun s => key s = key r) = some r := by
    refine List.find?_eq_some_iff_append.2 ⟨decide_eq_true rfl, late.reverse, early.reverse, ?_, ?_⟩
    · rw [hsplit]
      simp
    · intro s hs
      simpa using hlate s (List.mem_reverse.1 hs)
  rw [get?_apply, if_neg herase, hfind, Option.some_or]

end lookup

variable {d : Delta κ α} {deltas : List (Delta κ α)} {m : KeyMap κ α}

/-- What a delta decides stays if no later one touches the key. -/
theorem LastWrite.cons {found : Option α} (h : LastWrite key (d.apply key m) deltas k found) :
    LastWrite key m (d :: deltas) k found := by
  classical
  cases h with
  | erased before e after hsplit hafter herase =>
    exact .erased (d :: before) e after (by rw [hsplit, List.cons_append]) hafter herase
  | put before e after hsplit hafter herase r hlast hkey =>
    exact .put (d :: before) e after (by rw [hsplit, List.cons_append]) hafter herase r hlast hkey
  | untouched hnone =>
    rw [get?_apply]
    by_cases herase : k ∈ d.erase
    · rw [if_pos herase]
      exact .erased [] d deltas rfl hnone herase
    rw [if_neg herase]
    cases hfind : d.set.reverse.find? fun r => key r = k with
    | some r =>
      obtain ⟨hlast, hkey⟩ := isLast_of_find?_reverse hfind
      exact .put [] d deltas rfl hnone herase r hlast hkey
    | none =>
      refine .untouched (List.forall_mem_cons.2 ⟨?_, hnone⟩)
      rintro (hmem | ⟨r, hr, hkey⟩)
      · exact herase hmem
      · exact ne_of_find?_reverse hfind hr hkey

theorem lastWrite_applyAll (deltas : List (Delta κ α)) (m : KeyMap κ α) (k : κ) :
    LastWrite key m deltas k ((applyAll key deltas m).get? k) := by
  induction deltas generalizing m with
  | nil => exact .untouched fun _ hd => nomatch hd
  | cons d deltas ih => exact (ih (d.apply key m)).cons

theorem apply_apply (key : α → κ) (d : Delta κ α) (m : KeyMap κ α) :
    d.apply key (d.apply key m) = d.apply key m := by
  classical
  refine KeyMap.ext_get? fun k => ?_
  rw [get?_apply, get?_apply]
  by_cases herase : k ∈ d.erase
  · rw [if_pos herase, if_pos herase]
  · rw [if_neg herase, if_neg herase, ← Option.or_assoc, Option.or_self]

theorem apply_of_perm_set {set : List α} (h : d.set.Perm set) (hdistinct : (d.set.map key).Nodup)
    (m : KeyMap κ α) : apply key { d with set } m = d.apply key m := by
  classical
  refine KeyMap.ext_get? fun k => ?_
  simp only [get?_apply, find?_reverse_of_perm h hdistinct k]

theorem apply_of_perm_erase {erase : List κ} (h : d.erase.Perm erase) (m : KeyMap κ α) :
    apply key { d with erase } m = d.apply key m := by
  classical
  refine KeyMap.ext_get? fun k => ?_
  simp only [get?_apply, h.mem_iff]

/-- Behind any deltas, whatever the keys of the records and the map before them, what is found
under a key is what was found before if no delta touches the key, and is else decided by the last
one that does: nothing if it erases the key, and its last record with the key if it does not. A
delta that comes twice in a row counts once, and neither the order in which records with different
keys are put nor that in which keys are erased matters. -/
theorem last_write_wins (key : α → κ) (m : KeyMap κ α) :
    (∀ deltas k, LastWrite key m deltas k ((applyAll key deltas m).get? k)) ∧
    (∀ d, applyAll key [d, d] m = applyAll key [d] m) ∧
    (∀ (d : Delta κ α) (set : List α), d.set.Perm set → (d.set.map key).Nodup →
      apply key { d with set } m = d.apply key m) ∧
    ∀ (d : Delta κ α) (erase : List κ), d.erase.Perm erase →
      apply key { d with erase } m = d.apply key m :=
  ⟨fun deltas => lastWrite_applyAll deltas m, fun d => apply_apply key d m,
    fun _ _ h hdistinct => apply_of_perm_set h hdistinct m, fun _ _ h => apply_of_perm_erase h m⟩

theorem numbered_last_write_wins :
    let m : KeyMap String (String × Nat) := KeyMap.empty.insert "d" ("d", 0)
    let first : Delta String (String × Nat) :=
      { set := [("a", 1), ("b", 1)], erase := ["c", "d"] }
    let second : Delta String (String × Nat) :=
      { set := [("a", 2), ("b", 2), ("a", 3)], erase := ["b"] }
    (first.set.Perm first.set.reverse ∧ (first.set.map Prod.fst).Nodup ∧
      first.erase.Perm first.erase.reverse) ∧
    LastWrite Prod.fst m [second, first, second] "a" (some ("a", 3)) ∧
    LastWrite Prod.fst m [first, second] "b" none ∧
    apply Prod.fst { first with set := first.set.reverse } m = first.apply Prod.fst m ∧
    apply Prod.fst { first with erase := first.erase.reverse } m = first.apply Prod.fst m := by
  intro m first second
  have hset : first.set.Perm first.set.reverse := first.set.reverse_perm.symm
  have herase : first.erase.Perm first.erase.reverse := first.erase.reverse_perm.symm
  have hdistinct : (first.set.map Prod.fst).Nodup := by decide
  obtain ⟨hlast, -, hputs, herasures⟩ := last_write_wins Prod.fst m
  exact ⟨⟨hset, hdistinct, herase⟩, hlast [second, first, second] "a", hlast [first, second] "b",
    hputs first _ hset hdistinct, herasures first _ herase⟩

end SyncedConfig.Delta
