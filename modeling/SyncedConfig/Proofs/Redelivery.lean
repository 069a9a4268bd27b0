import SyncedConfig.Proofs.Delivery
import SyncedConfig.Proofs.History

/-!
# Redelivery

Messages may come more than once, and what comes again may be damaged. A batch can do without
the messages that bring nothing new: it is merged or refused all the same, with the same result.
And once a batch is merged, its messages bring nothing new at any later time, however they are
grouped.
-/
namespace SyncedConfig

namespace Message

variable {δ : Type} {schema : Schema δ} {hashes : List String} {m : Message} {batch : List Message}

/-- A message brings nothing new if it has no data or its hash is known. -/
def IsPassed (hashes : List String) (m : Message) : Prop :=
  m.data = [] ∨ m.hash ≠ "" ∧ m.hash ∈ hashes

theorem readBatch_cons_of_isPassed (h : IsPassed hashes m) (rest : List Message) :
    readBatch schema hashes (m :: rest) = readBatch schema hashes rest := by
  by_cases hdata : m.data = []
  · simp [readBatch, hdata]
  · have hknown := h.resolve_left hdata
    simp [readBatch, hdata, hknown]

theorem readBatch_of_isPassed (h : ∀ m ∈ batch, IsPassed hashes m) :
    readBatch schema hashes batch = .ok [] := by
  induction batch with
  | nil => rfl
  | cons m rest ih =>
    rw [readBatch_cons_of_isPassed (h m (List.mem_cons_self ..))]
    apply ih
    intro m' hm'
    exact h m' (List.mem_cons_of_mem _ hm')

theorem mem_extend_of_isPassed (h : IsPassed hashes m) (hash : String) :
    hash ∈ extend hashes m ↔ hash ∈ hashes := by
  rw [mem_extend]
  constructor
  · rintro (hmem | ⟨hdata, rfl⟩)
    · exact hmem
    · exact (h.resolve_left hdata).2
  · exact Or.inl

/-- Reading a batch comes to the same without the messages that bring nothing new. -/
theorem readBatch_fresh (hempty : "" ∉ hashes) (batch : List Message) :
    readBatch schema hashes (fresh hashes batch) = readBatch schema hashes batch := by
  induction batch generalizing hashes with
  | nil => rfl
  | cons m rest ih =>
    by_cases hpassed : IsPassed hashes m
    · have hold : ¬ (m.data ≠ [] ∧ m.hash ∉ hashes) := fun hnew =>
        hpassed.elim hnew.1 fun hknown => hnew.2 hknown.2
      have hknown := mem_extend_of_isPassed hpassed
      rw [fresh_cons, if_neg hold, List.nil_append, readBatch_cons_of_isPassed hpassed,
        ← readBatch_congr hknown, ← readBatch_congr hknown]
      exact ih (mt (hknown "").1 hempty)
    · have hdata : m.data ≠ [] := fun hdata => hpassed (.inl hdata)
      have hmem : m.hash ∉ hashes := fun hmem =>
        hpassed (.inr ⟨fun hhash => hempty (hhash ▸ hmem), hmem⟩)
      rw [fresh_cons, if_pos ⟨hdata, hmem⟩, List.singleton_append]
      by_cases hhash : m.hash = ""
      · simp [readBatch, hdata, hhash]
      -- both batches read this message, and behind it the same by induction
      · have hextend : extend hashes m = m.hash :: hashes := if_neg hdata
        have hrest : "" ∉ m.hash :: hashes := by simp [hempty, Ne.symm hhash]
        simp only [readBatch, List.isEmpty_iff, hdata, hmem, if_false, hextend, ih hrest]

end Message

namespace Config

variable {k : Kind} {c : Config k}

theorem Reachable.empty_not_mem (h : c.Reachable) : "" ∉ c.ledger.hashes := by
  obtain ⟨id, start, actions, hcreate, rfl⟩ := h
  have explained := (Explains.refl (hashes_of_create hcreate)).run actions
  exact fun hmem => explained.nonempty "" hmem rfl

theorem mem_hashes_run {hash : String} (h : hash ∈ c.ledger.hashes) (actions : List (Action k)) :
    hash ∈ (c.run actions).ledger.hashes := by
  rw [hashes_run]
  exact List.mem_append_left _ h

theorem mem_hashes_of_merge {batch : List Message} {accepted : List String} {c' : Config k}
    (h : c.merge batch = (.ok accepted, c')) {m : Message} (hm : m ∈ batch) (hdata : m.data ≠ []) :
    m.hash ∈ c'.ledger.hashes := by
  cases hread : Message.readBatch k.changeSchema c.ledger.hashes batch with
  | error e => simp [merge_of_error hread] at h
  | ok deltas =>
    rw [merge_of_ok hread] at h
    cases h
    exact List.mem_append.2 ((Message.mem_readBatch_iff hread).2 (.inr ⟨m, hm, hdata, rfl⟩))

theorem merge_of_isPassed {batch : List Message}
    (h : ∀ m ∈ batch, Message.IsPassed c.ledger.hashes m) : c.merge batch = (.ok [], c) := by
  rw [merge_of_ok (Message.readBatch_of_isPassed h), absorb_nil, List.map_nil]

theorem mergeInTurn_of_isPassed {batches : List (List Message)}
    (h : ∀ batch ∈ batches, ∀ m ∈ batch, Message.IsPassed c.ledger.hashes m) :
    c.mergeInTurn batches = (.ok [], c) := by
  apply (mergeInTurn_iff ..).2
  apply merge_of_isPassed
  intro m hm
  obtain ⟨batch, hbatch, hm⟩ := List.mem_flatten.1 hm
  exact h batch hbatch m hm

/-- Merging a batch returns and leaves behind the same as merging only its messages with data under
a hash that is neither in the ledger nor that of an earlier message with data. After a batch was
merged and whatever happened since, to merge any of its messages again, in any batches, accepts
nothing and changes nothing. -/
theorem redelivery_invisible (h : c.Reachable) (batch : List Message) :
    c.merge (Message.fresh c.ledger.hashes batch) = c.merge batch ∧
    ∀ accepted c', c.merge batch = (.ok accepted, c') →
      ∀ (later : List (Action k)) (again : List (List Message)), (∀ part ∈ again, part ⊆ batch) →
        (c'.run later).mergeInTurn again = (.ok [], c'.run later) := by
  constructor
  · simp only [merge, Ledger.readBatch, Message.readBatch_fresh h.empty_not_mem]
  · intro accepted c' hmerge later again hagain
    have hreachable : c'.Reachable := by
      have hact : c.run [.merge batch] = c' := congrArg Prod.snd hmerge
      exact hact ▸ h.run [.merge batch]
    apply mergeInTurn_of_isPassed
    intro part hpart m hm
    by_cases hdata : m.data = []
    · exact .inl hdata
    · have hmem : m.hash ∈ (c'.run later).ledger.hashes :=
        mem_hashes_run (mem_hashes_of_merge hmerge (hagain part hpart hm) hdata) later
      exact .inr ⟨fun hhash => (hreachable.run later).empty_not_mem (hhash ▸ hmem), hmem⟩

theorem contacts_redelivery_invisible :
    let start : Config .contacts := { content := {} }
    let c := start.run [.merge [⟨"a", [0x7b, 0x7d]⟩], .markDumped]
    let batch : List Message :=
      [⟨"a", [0x21]⟩, ⟨"b", [0x7b, 0x7d]⟩, ⟨"", []⟩, ⟨"b", [0x21]⟩, ⟨"c", [0x7b, 0x7d]⟩]
    c.Reachable ∧
      Message.fresh c.ledger.hashes batch = [⟨"b", [0x7b, 0x7d]⟩, ⟨"c", [0x7b, 0x7d]⟩] ∧
      c.merge (Message.fresh c.ledger.hashes batch) = c.merge batch := by
  intro start c batch
  have hcreate : create .contacts "" = .ok start := rfl
  have h : c.Reachable := reachable_run hcreate _
  exact ⟨h, by decide, (redelivery_invisible h batch).1⟩

end Config
end SyncedConfig
