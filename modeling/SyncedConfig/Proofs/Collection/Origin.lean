import SyncedConfig.Proofs.Collection.Lookup
import SyncedConfig.Proofs.History

/-!
# Where records come from

Nothing in a collection makes a record of its own. Each record that is found at the end of a run
was put in the course of it as it is: by an edit, or by the delta in a message of a batch that was
merged.
-/
namespace SyncedConfig

variable {c : CollectionKind}

namespace EntryChange

variable {found : c.Key → Option c.Record} {key : c.Key} {record : c.Record}

theorem eq_put_or_of_perform {change : EntryChange c}
    (h : change.perform found key = some record) :
    change = put record ∨ found key = some record := by
  cases change with
  | put other =>
    simp only [perform] at h
    split at h
    next => exact .inl (congrArg put (Option.some.inj h))
    next => exact .inr h
  | erase erased =>
    simp only [perform] at h
    split at h
    next => cases h
    next => exact .inr h

theorem put_mem_or_of_foldl {changes : List (EntryChange c)}
    (h : changes.foldl perform found key = some record) :
    put record ∈ changes ∨ found key = some record := by
  induction changes generalizing found with
  | nil => exact .inr h
  | cons change changes ih =>
    rcases ih h with hput | hfound
    · exact .inl (List.mem_cons_of_mem _ hput)
    rcases eq_put_or_of_perform hfound with rfl | hfound
    · exact .inl (List.mem_cons_self ..)
    · exact .inr hfound

theorem put_mem_ofDelta {d : Delta c.Key c.Record} : put record ∈ ofDelta d ↔ record ∈ d.set := by
  simp [ofDelta]

end EntryChange

namespace Config

variable {config : Config (.collection c)} {actions : List (Action (.collection c))}
  {record : c.Record}

/-- A record is put by the delta in a message that a merge takes. -/
def PutBy (record : c.Record) (m : Message) : Prop :=
  ∃ delta, (Kind.collection c).changeSchema.decode m.data = .ok delta ∧ record ∈ delta.set

theorem putBy_of_put_mem_merge {batch : List Message}
    (h : .put record ∈ config.entryChanges (.merge batch)) :
    ∃ m ∈ config.delivered (.merge batch), PutBy record m := by
  simp only [entryChanges, Ledger.readBatch] at h
  split at h
  next => cases h
  next deltas hread =>
    obtain ⟨⟨hash, delta⟩, hd, hput⟩ := List.mem_flatMap.1 h
    have hdelta := (Message.of_mem_readBatch hread hd).2.2
    obtain ⟨m, hm, -, hdecode⟩ := Message.exists_decode_of_deltaUnder hdelta
    refine ⟨m, ?_, delta, hdecode, EntryChange.put_mem_ofDelta.1 hput⟩
    rw [delivered, merge_of_ok hread]
    exact hm

/-- A record is brought into a run: an edit puts it, or a message that a merge takes. -/
def Brings (config : Config (.collection c)) (actions : List (Action (.collection c)))
    (record : c.Record) : Prop :=
  .edit (.set record) ∈ actions ∨ ∃ m ∈ config.along delivered actions, PutBy record m

theorem brings_of_put_mem_along (h : .put record ∈ config.along entryChanges actions) :
    config.Brings actions record := by
  induction actions generalizing config with
  | nil => cases h
  | cons a rest ih =>
    rcases List.mem_append.1 h with hnow | hlater
    · match a with
      | .edit (.set other) =>
        obtain rfl : record = other := by simpa [entryChanges] using hnow
        exact .inl (List.mem_cons_self ..)
      | .edit (.erase key) => simp [entryChanges] at hnow
      | .merge batch =>
        obtain ⟨m, hm, hput⟩ := putBy_of_put_mem_merge hnow
        exact .inr ⟨m, List.mem_append_left _ hm, hput⟩
      | .markDumped => cases hnow
    · rcases ih hlater with hset | ⟨m, hm, hput⟩
      · exact .inl (List.mem_cons_of_mem _ hset)
      · exact .inr ⟨m, List.mem_append_right _ hm, hput⟩

/-- A record that is kept at the end of a run was brought into it. -/
theorem brings_of_mem_records {id : String} (h : create (.collection c) id = .ok config)
    (hmem : record ∈ (config.run actions).records) : config.Brings actions record := by
  have hget := (mem_records_iff (ownKeys_run h actions)).1 hmem
  rw [get?_run, get?_of_create h] at hget
  rcases EntryChange.put_mem_or_of_foldl hget with hput | hfound
  · exact brings_of_put_mem_along hput
  · cases hfound

end Config
end SyncedConfig
