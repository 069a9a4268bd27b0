import SyncedConfig.Proofs.Batch
import SyncedConfig.Proofs.Collection.LastWrite
import SyncedConfig.Proofs.Run

/-!
# Collections as look-ups

All that a run does to a collection is to put records under their own keys and to erase keys,
one entry after the other. What is found at its end is what these changes make of looking up in
vain, and so a record is found under no key but its own.
-/
namespace SyncedConfig

variable {c : CollectionKind} {found : c.Key → Option c.Record}

instance : (c : CollectionKind) → DecidableEq c.Key
  | .conversations => inferInstanceAs (DecidableEq ConversationKey)
  | .groups => inferInstanceAs (DecidableEq UserGroupKey)
  | .contacts | .members => inferInstanceAs (DecidableEq String)

/-- A change of one entry: a record is put under its own key, or a key is erased. -/
inductive EntryChange (c : CollectionKind)
  | put (record : c.Record)
  | erase (key : c.Key)

namespace EntryChange

/-- What is found behind a change, given what was found before. -/
def perform (found : c.Key → Option c.Record) : EntryChange c → c.Key → Option c.Record
  | put record, key => if key = c.keyOf record then some record else found key
  | erase erased, key => if key = erased then none else found key

def ofDelta (d : Delta c.Key c.Record) : List (EntryChange c) :=
  d.set.map put ++ d.erase.map erase

/-- Whatever is found under a key has that key. -/
def OwnKeys (found : c.Key → Option c.Record) : Prop :=
  ∀ key record, found key = some record → c.keyOf record = key

theorem OwnKeys.perform (h : OwnKeys found) (change : EntryChange c) :
    OwnKeys (change.perform found) := by
  intro key record hfound
  cases change with
  | put other =>
    simp only [EntryChange.perform] at hfound
    split at hfound
    next hkey =>
      cases hfound
      exact hkey.symm
    next => exact h key record hfound
  | erase erased =>
    simp only [EntryChange.perform] at hfound
    split at hfound
    next => cases hfound
    next => exact h key record hfound

theorem OwnKeys.foldl (h : OwnKeys found) (changes : List (EntryChange c)) :
    OwnKeys (changes.foldl EntryChange.perform found) := by
  induction changes generalizing found with
  | nil => exact h
  | cons change changes ih => exact ih (h.perform change)

/-- Where no record of the sort of the key is found, nothing is. -/
theorem OwnKeys.eq_none_of_sort {ρ : Type} {key : c.Key} {wrap : ρ → c.Record}
    (h : OwnKeys found)
    (hother : ∀ a, found key = some (wrap a) → False)
    (hsort : ∀ record, c.keyOf record = key → ∃ a, wrap a = record) : found key = none := by
  refine Option.eq_none_iff_forall_ne_some.2 fun record hget => ?_
  obtain ⟨a, rfl⟩ := hsort record (h key record hget)
  exact hother a hget

theorem get?_insert (records : c.Records) (record : c.Record) :
    (records.insert (c.keyOf record) record).get? = (put record).perform records.get? := by
  funext key
  simp [KeyMap.get?_insert, perform]

theorem get?_erase (records : c.Records) (key : c.Key) :
    (records.erase key).get? = (erase key).perform records.get? := by
  funext j
  simp [KeyMap.get?_erase, perform]

theorem get?_apply (d : Delta c.Key c.Record) (records : c.Records) :
    (d.apply c.keyOf records).get? = (ofDelta d).foldl perform records.get? := by
  rw [ofDelta, List.foldl_append, List.foldl_map, List.foldl_map, Delta.apply,
    List.foldl_hom KeyMap.get? fun records record => (get?_insert records record).symm,
    List.foldl_hom KeyMap.get? fun records key => (get?_erase records key).symm]

end EntryChange

namespace Config

variable (config : Config (.collection c))

def entryChanges : Action (.collection c) → List (EntryChange c)
  | .edit (.set record) => [.put record]
  | .edit (.erase key) => [.erase key]
  | .merge messages =>
    match config.ledger.readBatch (Kind.collection c).changeSchema messages with
    | .error _ => []
    | .ok batch => batch.flatMap fun delta => EntryChange.ofDelta delta.2
  | .markDumped => []

theorem get?_set (record : c.Record) :
    (config.set record).get? = (EntryChange.put record).perform config.get? :=
  EntryChange.get?_insert config.content record

theorem get?_erase (key : c.Key) :
    (config.erase key).2.get? = (EntryChange.erase key).perform config.get? := by
  rw [erase]
  split
  next => exact EntryChange.get?_erase config.content key
  next h =>
    -- erasing a key under which there is nothing changes nothing
    have habsent : config.get? key = none := by
      simpa [KeyMap.contains, get?] using h
    funext j
    simp only [EntryChange.perform]
    split
    next hj => exact hj ▸ habsent
    next => rfl

theorem get?_absorb (deltas : List (String × (Kind.collection c).Change)) :
    (config.absorb deltas).get? =
      (deltas.flatMap fun d => EntryChange.ofDelta d.2).foldl EntryChange.perform
        config.get? := by
  rw [List.foldl_flatMap]
  change KeyMap.get? ((deltas.map (·.2)).foldl (fun m d => d.apply c.keyOf m) config.content) = _
  rw [List.foldl_map]
  exact (List.foldl_hom KeyMap.get? fun m d => (EntryChange.get?_apply d.2 m).symm).symm

theorem get?_act (a : Action (.collection c)) :
    (config.act a).get? = (config.entryChanges a).foldl EntryChange.perform config.get? := by
  match a with
  | .edit (.set record) => exact config.get?_set record
  | .edit (.erase key) => exact config.get?_erase key
  | .merge messages =>
    cases h : Message.readBatch (Kind.collection c).changeSchema config.ledger.hashes messages with
    | error e =>
      simp only [act, merge_of_error h, entryChanges, Ledger.readBatch, h, List.foldl_nil]
    | ok deltas =>
      simp only [act, merge_of_ok h, entryChanges, Ledger.readBatch, h]
      exact config.get?_absorb deltas
  | .markDumped => rfl

theorem get?_run (actions : List (Action (.collection c))) :
    (config.run actions).get? =
      (config.along entryChanges actions).foldl EntryChange.perform config.get? := by
  induction actions generalizing config with
  | nil => rfl
  | cons a rest ih => rw [run_cons, ih, get?_act, along, List.foldl_append]

variable {config}

theorem get?_of_create {id : String} (h : create (.collection c) id = .ok config) :
    config.get? = fun _ => none := by
  cases h
  rfl

theorem ownKeys_run {id : String} (h : create (.collection c) id = .ok config)
    (actions : List (Action (.collection c))) : EntryChange.OwnKeys (config.run actions).get? := by
  rw [get?_run, get?_of_create h]
  have hnone : EntryChange.OwnKeys fun _ : c.Key => none := fun _ _ hfound => nomatch hfound
  exact hnone.foldl _

theorem ownKeys_of_reachable (h : config.Reachable) : EntryChange.OwnKeys config.get? := by
  obtain ⟨id, start, actions, hcreate, rfl⟩ := h
  exact ownKeys_run hcreate actions

/-- The records of a collection are those found under their own keys. -/
theorem mem_records_iff (h : EntryChange.OwnKeys config.get?) {record : c.Record} :
    record ∈ config.records ↔ config.get? (c.keyOf record) = some record := by
  constructor
  · intro hmem
    obtain ⟨⟨key, record⟩, hentry, rfl⟩ := List.mem_map.1 hmem
    have hget : config.get? key = some record := KeyMap.get?_eq_some_iff.2 hentry
    rw [h key record hget, hget]
  · intro hget
    exact List.mem_map.2 ⟨(c.keyOf record, record), KeyMap.get?_eq_some_iff.1 hget, rfl⟩

theorem get?_eq_some_iff (h : EntryChange.OwnKeys config.get?) {key : c.Key} {r : c.Record} :
    config.get? key = some r ↔ c.keyOf r = key ∧ r ∈ config.records := by
  constructor
  · intro hget
    have hkey : c.keyOf r = key := h key r hget
    exact ⟨hkey, (mem_records_iff h).2 (hkey ▸ hget)⟩
  · rintro ⟨rfl, hmem⟩
    exact (mem_records_iff h).1 hmem

theorem ownKeys_set (h : EntryChange.OwnKeys config.get?) (record : c.Record) :
    EntryChange.OwnKeys (config.set record).get? := by
  rw [get?_set]
  exact h.perform _

theorem ownKeys_erase (h : EntryChange.OwnKeys config.get?) (key : c.Key) :
    EntryChange.OwnKeys (config.erase key).2.get? := by
  rw [get?_erase]
  exact h.perform _

theorem mem_records_set (h : EntryChange.OwnKeys config.get?) {record other : c.Record} :
    record ∈ (config.set other).records ↔
      record = other ∨ record ∈ config.records ∧ c.keyOf record ≠ c.keyOf other := by
  rw [mem_records_iff (ownKeys_set h other), mem_records_iff h, get?_set, EntryChange.perform]
  split
  next hkey => simp [hkey, eq_comm]
  next hkey =>
    have hne : record ≠ other := fun heq => hkey (congrArg c.keyOf heq)
    simp [hkey, hne]

theorem mem_records_erase (h : EntryChange.OwnKeys config.get?) {record : c.Record} {key : c.Key} :
    record ∈ (config.erase key).2.records ↔ record ∈ config.records ∧ c.keyOf record ≠ key := by
  rw [mem_records_iff (ownKeys_erase h key), mem_records_iff h, get?_erase, EntryChange.perform]
  split
  next hkey => simp [hkey]
  next hkey => simp [hkey]

theorem content_eq_of_records {other : Config (.collection c)}
    (h : EntryChange.OwnKeys config.get?) (hother : EntryChange.OwnKeys other.get?)
    (hsame : ∀ r, r ∈ config.records ↔ r ∈ other.records) : config.content = other.content := by
  refine KeyMap.ext_get? fun key => Option.ext fun r => ?_
  calc config.get? key = some r
      ↔ c.keyOf r = key ∧ r ∈ config.records := get?_eq_some_iff h
    _ ↔ c.keyOf r = key ∧ r ∈ other.records := and_congr Iff.rfl (hsame r)
    _ ↔ other.get? key = some r := (get?_eq_some_iff hother).symm

theorem records_ascend (h : EntryChange.OwnKeys config.get?) :
    config.records.Pairwise fun r s => compare (c.keyOf r) (c.keyOf s) = .lt := by
  have hown : ∀ e ∈ config.content.entries, c.keyOf e.2 = e.1 := fun e he =>
    h e.1 e.2 (KeyMap.get?_eq_some_iff.2 he)
  refine List.pairwise_map.2 (config.content.ascending.imp_of_mem fun {e f} he hf hlt => ?_)
  rw [hown e he, hown f hf]
  exact hlt

theorem find?_records (h : EntryChange.OwnKeys config.get?) (key : c.Key) :
    (config.records.reverse.find? fun record => c.keyOf record = key) = config.get? key := by
  cases hfind : config.records.reverse.find? fun record => c.keyOf record = key with
  | none =>
    refine (Option.eq_none_iff_forall_ne_some.2 fun record hget => ?_).symm
    obtain ⟨hkey, hmem⟩ := (get?_eq_some_iff h).1 hget
    exact List.find?_eq_none.1 hfind record (List.mem_reverse.2 hmem) (decide_eq_true hkey)
  | some record =>
    have hkey : c.keyOf record = key := by simpa using List.find?_some hfind
    have hmem : record ∈ config.records := List.mem_reverse.1 (List.mem_of_find?_eq_some hfind)
    exact ((get?_eq_some_iff h).2 ⟨hkey, hmem⟩).symm

theorem mem_map_keyOf_iff (h : EntryChange.OwnKeys config.get?) {key : c.Key} :
    key ∈ config.records.map c.keyOf ↔ (config.get? key).isSome := by
  constructor
  · intro hmem
    obtain ⟨record, hrecord, rfl⟩ := List.mem_map.1 hmem
    rw [(mem_records_iff h).1 hrecord]
    rfl
  · intro hsome
    obtain ⟨record, hget⟩ := Option.isSome_iff_exists.1 hsome
    obtain ⟨hkey, hmem⟩ := (get?_eq_some_iff h).1 hget
    exact List.mem_map.2 ⟨record, hmem, hkey⟩

end Config
end SyncedConfig
