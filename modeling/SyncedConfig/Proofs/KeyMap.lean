import SyncedConfig.KeyMap

/-!
# Maps as look-ups

A map has one entry for each of its keys, and look-ups find exactly its entries. So a map is
determined by what it finds, and putting an entry adds one unless its key is there.
-/
namespace SyncedConfig.KeyMap

open Std

variable {κ α : Type} [Ord κ] {m n : KeyMap κ α} {k : κ} {a : α}

theorem eq_of_entries (h : m.entries = n.entries) : m = n := by
  cases m
  cases n
  cases h
  rfl

theorem length_insertEntry [TransOrd κ] {entries : List (κ × α)}
    (h : entries.Pairwise fun a b => compare a.1 b.1 = .lt) (k : κ) (a : α) :
    (insertEntry k a entries).length =
      if (entries.find? fun e => compare k e.1 = .eq).isSome then entries.length
      else entries.length + 1 := by
  induction entries with
  | nil => rfl
  | cons head rest ih =>
    obtain ⟨k', a'⟩ := head
    obtain ⟨hhead, hrest⟩ := List.pairwise_cons.1 h
    simp only [insertEntry]
    split
    next hk =>
      have habsent : (rest.find? fun e => compare k e.1 = .eq) = none := by
        refine List.find?_eq_none.2 fun e he => ?_
        simp [TransCmp.lt_trans hk (hhead e he)]
      simp [hk, habsent]
    next hk => simp [hk]
    next hk =>
      rw [List.length_cons, ih hrest, List.find?_cons_of_neg (by simp [hk]), List.length_cons]
      split <;> rfl

/-- Putting an entry adds one unless there is one with its key. -/
theorem size_insert [TransOrd κ] (m : KeyMap κ α) (k : κ) (a : α) :
    (m.insert k a).size = if (m.get? k).isSome then m.size else m.size + 1 := by
  rw [size, insert, length_insertEntry m.ascending, get?, Option.isSome_map, size]

theorem pairwise_ne [TransOrd κ] (m : KeyMap κ α) : m.entries.Pairwise fun a b => a.1 ≠ b.1 := by
  refine m.ascending.imp fun {a b} hlt heq => ?_
  rw [heq, ReflOrd.compare_self] at hlt
  cases hlt

theorem keys_nodup [TransOrd κ] (m : KeyMap κ α) : m.keys.Nodup :=
  List.nodup_iff_pairwise_ne.2 (List.pairwise_map.2 m.pairwise_ne)

variable [LawfulEqOrd κ]

theorem get?_eq_some_iff : m.get? k = some a ↔ (k, a) ∈ m.entries := by
  obtain ⟨entries, ascending⟩ := m
  simp only [get?]
  induction entries with
  | nil => simp
  | cons head rest ih =>
    obtain ⟨k', a'⟩ := head
    obtain ⟨hhead, hrest⟩ := List.pairwise_cons.1 ascending
    by_cases hk : k = k'
    · subst hk
      have hbehind : (k, a) ∉ rest := by
        intro hmem
        have hlt := hhead _ hmem
        simp at hlt
      simp [hbehind, eq_comm]
    · simpa [hk] using ih hrest

theorem mem_keys_iff : k ∈ m.keys ↔ (m.get? k).isSome := by
  constructor
  · intro hmem
    obtain ⟨⟨k, a⟩, hentry, rfl⟩ := List.mem_map.1 hmem
    exact Option.isSome_iff_exists.2 ⟨a, get?_eq_some_iff.2 hentry⟩
  · intro hsome
    obtain ⟨a, hget⟩ := Option.isSome_iff_exists.1 hsome
    exact List.mem_map.2 ⟨(k, a), get?_eq_some_iff.1 hget, rfl⟩

theorem mem_keys_insert [TransOrd κ] {j : κ} : k ∈ (m.insert j a).keys ↔ k = j ∨ k ∈ m.keys := by
  rw [mem_keys_iff, mem_keys_iff, get?_insert]
  by_cases h : k = j <;> simp [h]

theorem mem_keys_erase [TransOrd κ] {j : κ} : k ∈ (m.erase j).keys ↔ k ≠ j ∧ k ∈ m.keys := by
  rw [mem_keys_iff, mem_keys_iff, get?_erase]
  by_cases h : k = j <;> simp [h]

/-- Maps that find the same under every key are the same. -/
theorem ext_get? [TransOrd κ] (h : ∀ k, m.get? k = n.get? k) : m = n := by
  have hmem : ∀ e, e ∈ m.entries ↔ e ∈ n.entries := by
    rintro ⟨k, a⟩
    rw [← get?_eq_some_iff, ← get?_eq_some_iff, h]
  have hnodup (m : KeyMap κ α) : m.entries.Nodup :=
    List.nodup_iff_pairwise_ne.2 (m.pairwise_ne.imp fun hne heq => hne (congrArg Prod.fst heq))
  have hperm := (List.perm_ext_iff_of_nodup (hnodup m) (hnodup n)).2 hmem
  refine eq_of_entries (List.Perm.eq_of_pairwise ?_ m.ascending n.ascending hperm)
  intro a b _ _ hab hba
  exact absurd hba (OrientedCmp.not_lt_of_lt hab)

theorem get?_foldl_insert [TransOrd κ] {entries : List (κ × α)}
    (h : entries.Pairwise fun a b => a.1 ≠ b.1) (m : KeyMap κ α) :
    (entries.foldl (fun m e => m.insert e.1 e.2) m).get? k = some a ↔
      (k, a) ∈ entries ∨ (∀ e ∈ entries, e.1 ≠ k) ∧ m.get? k = some a := by
  induction entries generalizing m with
  | nil => simp
  | cons e entries ih =>
    obtain ⟨k', a'⟩ := e
    obtain ⟨hhead, htail⟩ := List.pairwise_cons.1 h
    rw [List.foldl_cons, ih htail, get?_insert]
    by_cases hk : k = k'
    · subst hk
      have hbehind : (k, a) ∉ entries := fun hmem => hhead _ hmem rfl
      have hne : ∀ e ∈ entries, e.1 ≠ k := fun e he => (hhead e he).symm
      rw [if_pos ReflOrd.compare_self, or_iff_right hbehind, and_iff_right hne,
        Option.some.injEq]
      constructor
      · rintro rfl
        exact .inl (List.mem_cons_self ..)
      · rintro (hmem | ⟨hnone, -⟩)
        · rcases List.mem_cons.1 hmem with heq | hmem
          · exact (Prod.mk.inj heq).2.symm
          · exact absurd hmem hbehind
        · exact absurd rfl (hnone _ (List.mem_cons_self ..))
    · simp [hk, Ne.symm hk]

/-- A map is made of its entries in any order. -/
theorem foldl_insert_of_perm [TransOrd κ] {entries : List (κ × α)} (h : m.entries.Perm entries) :
    entries.foldl (fun m e => m.insert e.1 e.2) empty = m := by
  have hne : entries.Pairwise fun a b => a.1 ≠ b.1 := m.pairwise_ne.perm h fun hne => hne.symm
  refine ext_get? fun k => Option.ext fun a => ?_
  rw [get?_foldl_insert hne, ← h.mem_iff, ← get?_eq_some_iff]
  simp

end SyncedConfig.KeyMap
