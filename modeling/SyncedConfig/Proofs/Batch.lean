import Mathlib.Data.List.Forall2
import SyncedConfig.Config.Basic

/-!
# Which batches are merged

A batch is refused by its first message that has data but no hash, or that has data which
cannot be read under a hash not known by then. Known are the hashes of the ledger and of
earlier messages with data, whatever that data is. A batch that no message refuses is
merged, and exactly its messages with data under a hash not known by then are new.
-/
namespace SyncedConfig

theorem eq_error_of_map {ε α β : Type} {x : Except ε α} {f : α → β} {e : ε}
    (h : x.map f = .error e) : x = .error e := by
  cases x with
  | error e' => exact congrArg Except.error (Except.error.inj h)
  | ok a => cases h

theorem eq_ok_of_map {ε α β : Type} {x : Except ε α} {f : α → β} {b : β}
    (h : x.map f = .ok b) : ∃ a, x = .ok a ∧ f a = b := by
  cases x with
  | error e => cases h
  | ok a => exact ⟨a, rfl, Except.ok.inj h⟩

variable {δ : Type}

namespace Message

/-- A hash is known at a place of a batch if it was known before the batch or an earlier
message has data under it. -/
def Known (hashes : List String) (batch : List Message) (i : Nat) (hash : String) : Prop :=
  hash ∈ hashes ∨ ∃ m ∈ batch.take i, m.data ≠ [] ∧ m.hash = hash

instance (hashes : List String) (batch : List Message) (i : Nat) (hash : String) :
    Decidable (Known hashes batch i hash) := inferInstanceAs (Decidable (_ ∨ _))

/-- The message at a place of a batch refuses the batch with an error. -/
def Refuses (schema : Schema δ) (hashes : List String) (batch : List Message) (i : Nat)
    (e : SyncError) : Prop :=
  ∃ m, batch[i]? = some m ∧ m.data ≠ [] ∧
    (m.hash = "" ∧ e = .emptyHash ∨
      m.hash ≠ "" ∧ ¬ Known hashes batch i m.hash ∧
        ∃ fault, schema.decode m.data = .error fault ∧ e = .decode fault)

/-- No message before the one at this place refuses the batch. -/
def RefusesFirst (schema : Schema δ) (hashes : List String) (batch : List Message) (i : Nat)
    (e : SyncError) : Prop :=
  Refuses schema hashes batch i e ∧ ∀ j < i, ∀ e', ¬ Refuses schema hashes batch j e'

/-- The messages of a batch with data under a hash not known by then, in order. -/
def fresh (hashes : List String) (batch : List Message) : List Message :=
  (List.range batch.length).filterMap fun i =>
    batch[i]?.filter fun m => m.data ≠ [] ∧ ¬ Known hashes batch i m.hash

/-- The hashes that are known behind a message. -/
def extend (hashes : List String) (m : Message) : List String :=
  if m.data = [] then hashes else m.hash :: hashes

variable {schema : Schema δ} {hashes hashes' : List String} {m : Message} {rest : List Message}
  {i : Nat} {hash : String} {e : SyncError}

theorem known_zero : Known hashes rest 0 hash ↔ hash ∈ hashes := by
  simp [Known]

theorem mem_extend : hash ∈ extend hashes m ↔ hash ∈ hashes ∨ m.data ≠ [] ∧ m.hash = hash := by
  by_cases hdata : m.data = [] <;> simp [extend, hdata, or_comm, eq_comm]

theorem known_succ :
    Known hashes (m :: rest) (i + 1) hash ↔ Known (extend hashes m) rest i hash := by
  simp only [Known, mem_extend, List.take_succ_cons, List.mem_cons, exists_eq_or_imp, or_assoc]

theorem refuses_zero : Refuses schema hashes (m :: rest) 0 e ↔
    m.data ≠ [] ∧ (m.hash = "" ∧ e = .emptyHash ∨
      m.hash ≠ "" ∧ m.hash ∉ hashes ∧
        ∃ fault, schema.decode m.data = .error fault ∧ e = .decode fault) := by
  simp [Refuses, known_zero]

theorem refuses_succ :
    Refuses schema hashes (m :: rest) (i + 1) e ↔ Refuses schema (extend hashes m) rest i e := by
  simp only [Refuses, List.getElem?_cons_succ, known_succ]

theorem fresh_cons : fresh hashes (m :: rest) =
    (if m.data ≠ [] ∧ m.hash ∉ hashes then [m] else []) ++ fresh (extend hashes m) rest := by
  have head : ((m :: rest)[0]?.filter fun m' =>
      m'.data ≠ [] ∧ ¬ Known hashes (m :: rest) 0 m'.hash) =
      if m.data ≠ [] ∧ m.hash ∉ hashes then some m else none := by
    simp only [List.getElem?_cons_zero, Option.filter_some, known_zero, decide_eq_true_eq]
  have tail : (List.range rest.length).filterMap ((fun i => (m :: rest)[i]?.filter fun m' =>
      m'.data ≠ [] ∧ ¬ Known hashes (m :: rest) i m'.hash) ∘ Nat.succ) =
      fresh (extend hashes m) rest := by
    simp only [fresh, Function.comp_def, Nat.succ_eq_add_one, List.getElem?_cons_succ, known_succ]
  rw [fresh, List.length_cons, List.range_succ_eq_map, List.filterMap_cons, List.filterMap_map,
    head, tail]
  split <;> simp_all

theorem readBatch_congr (h : ∀ x, x ∈ hashes ↔ x ∈ hashes') :
    readBatch schema hashes rest = readBatch schema hashes' rest := by
  induction rest generalizing hashes hashes' with
  | nil => rfl
  | cons m rest ih =>
    have hm : ∀ x, x ∈ m.hash :: hashes ↔ x ∈ m.hash :: hashes' := by simp [h]
    simp only [readBatch, h, ih h, ih hm]

/-- A message refuses the batch, or is passed over, or is read and makes its hash known. -/
theorem readBatch_cons (schema : Schema δ) (hashes : List String) (m : Message)
    (rest : List Message) :
    (∃ e, Refuses schema hashes (m :: rest) 0 e ∧
      readBatch schema hashes (m :: rest) = .error e) ∨
    (m.data = [] ∨ m.hash ∈ hashes) ∧ (∀ e, ¬ Refuses schema hashes (m :: rest) 0 e) ∧
      readBatch schema hashes (m :: rest) = readBatch schema (extend hashes m) rest ∨
    (m.data ≠ [] ∧ m.hash ≠ "" ∧ m.hash ∉ hashes) ∧ ∃ delta, schema.decode m.data = .ok delta ∧
      readBatch schema hashes (m :: rest) =
        (readBatch schema (extend hashes m) rest).map ((m.hash, delta) :: ·) := by
  by_cases hdata : m.data = []
  · exact .inr (.inl ⟨.inl hdata, by simp [refuses_zero, hdata],
      by simp [readBatch, extend, hdata]⟩)
  by_cases hempty : m.hash = ""
  · exact .inl ⟨.emptyHash, by simp [refuses_zero, hdata, hempty],
      by simp [readBatch, hdata, hempty]⟩
  by_cases hmem : m.hash ∈ hashes
  · have known : ∀ x, x ∈ hashes ↔ x ∈ extend hashes m := by
      simp [extend, hdata, hmem]
    refine .inr (.inl ⟨.inr hmem, by simp [refuses_zero, hempty, hmem], ?_⟩)
    simp [readBatch, hdata, hempty, hmem, readBatch_congr known]
  cases hdecode : schema.decode m.data with
  | error fault =>
    exact .inl ⟨.decode fault, by simp [refuses_zero, hdata, hempty, hmem, hdecode],
      by simp [readBatch, hdata, hempty, hmem, hdecode]⟩
  | ok delta =>
    refine .inr (.inr ⟨⟨hdata, hempty, hmem⟩, delta, rfl, ?_⟩)
    simp only [readBatch, extend, List.isEmpty_iff, hdata, hempty, hmem, hdecode, if_false]
    rfl

theorem RefusesFirst.succ (hm : ∀ e', ¬ Refuses schema hashes (m :: rest) 0 e')
    (h : RefusesFirst schema (extend hashes m) rest i e) :
    RefusesFirst schema hashes (m :: rest) (i + 1) e := by
  refine ⟨refuses_succ.2 h.1, fun j hj e' => ?_⟩
  cases j with
  | zero => exact hm e'
  | succ j => exact fun hr => h.2 j (Nat.lt_of_succ_lt_succ hj) e' (refuses_succ.1 hr)

/-- A refused batch is refused by its first message that refuses it. -/
theorem refusesFirst_of_readBatch {batch : List Message}
    (h : readBatch schema hashes batch = .error e) :
    ∃ i, RefusesFirst schema hashes batch i e := by
  induction batch generalizing hashes with
  | nil => cases h
  | cons m rest ih =>
    rcases readBatch_cons schema hashes m rest with
      ⟨e', hr, he⟩ | ⟨-, hm, hread⟩ | ⟨⟨-, hne, hmem⟩, delta, hdecode, hread⟩
    · rw [he] at h
      cases h
      exact ⟨0, hr, fun j hj => absurd hj (Nat.not_lt_zero j)⟩
    · rw [hread] at h
      obtain ⟨i, hi⟩ := ih h
      exact ⟨i + 1, hi.succ hm⟩
    · have hm : ∀ e', ¬ Refuses schema hashes (m :: rest) 0 e' := by
        simp [refuses_zero, hne, hmem, hdecode]
      rw [hread] at h
      obtain ⟨i, hi⟩ := ih (eq_error_of_map h)
      exact ⟨i + 1, hi.succ hm⟩

/-- No message refuses a batch that is read. -/
theorem not_refuses_of_readBatch {batch : List Message} {deltas : List (String × δ)}
    (h : readBatch schema hashes batch = .ok deltas) (i : Nat) (e : SyncError) :
    ¬ Refuses schema hashes batch i e := by
  induction batch generalizing hashes deltas i with
  | nil => simp [Refuses]
  | cons m rest ih =>
    rcases readBatch_cons schema hashes m rest with
      ⟨e', hr, he⟩ | ⟨-, hm, hread⟩ | ⟨⟨-, hne, hmem⟩, delta, hdecode, hread⟩
    · rw [he] at h
      cases h
    · cases i with
      | zero => exact hm e
      | succ i => exact fun hr => ih (hread ▸ h) i (refuses_succ.1 hr)
    · cases i with
      | zero => simp [refuses_zero, hne, hmem, hdecode]
      | succ i =>
        rw [hread] at h
        obtain ⟨more, hrest, -⟩ := eq_ok_of_map h
        exact fun hr => ih hrest i (refuses_succ.1 hr)

/-- Of a batch that is read each new message is read, under its hash. -/
theorem fresh_of_readBatch {batch : List Message} {deltas : List (String × δ)}
    (h : readBatch schema hashes batch = .ok deltas) :
    List.Forall₂ (fun m d => m.hash = d.1 ∧ schema.decode m.data = .ok d.2)
      (fresh hashes batch) deltas := by
  induction batch generalizing hashes deltas with
  | nil =>
    cases h
    exact .nil
  | cons m rest ih =>
    rcases readBatch_cons schema hashes m rest with
      ⟨e', hr, he⟩ | ⟨hpass, hm, hread⟩ | ⟨⟨hdata, hne, hmem⟩, delta, hdecode, hread⟩
    · rw [he] at h
      cases h
    · have hold : ¬ (m.data ≠ [] ∧ m.hash ∉ hashes) := by
        rcases hpass with h | h <;> simp [h]
      rw [fresh_cons, if_neg hold, List.nil_append]
      exact ih (hread ▸ h)
    · rw [hread] at h
      obtain ⟨more, hrest, rfl⟩ := eq_ok_of_map h
      rw [fresh_cons, if_pos ⟨hdata, hmem⟩, List.singleton_append]
      exact .cons ⟨rfl, hdecode⟩ (ih hrest)

/-- Behind a batch that is read exactly the hashes of its messages with data are added. -/
theorem mem_readBatch_iff {batch : List Message} {deltas : List (String × δ)}
    (h : readBatch schema hashes batch = .ok deltas) :
    hash ∈ hashes ∨ hash ∈ deltas.map (·.1) ↔
      hash ∈ hashes ∨ ∃ m ∈ batch, m.data ≠ [] ∧ m.hash = hash := by
  induction batch generalizing hashes deltas with
  | nil =>
    cases h
    simp
  | cons m rest ih =>
    have extended : (hash ∈ hashes ∨ ∃ m' ∈ m :: rest, m'.data ≠ [] ∧ m'.hash = hash) ↔
        (hash ∈ extend hashes m ∨ ∃ m' ∈ rest, m'.data ≠ [] ∧ m'.hash = hash) := by
      simp only [mem_extend, List.mem_cons, exists_eq_or_imp, or_assoc]
    rw [extended]
    rcases readBatch_cons schema hashes m rest with
      ⟨e, -, he⟩ | ⟨hpass, -, hread⟩ | ⟨⟨hdata, -, -⟩, delta, -, hread⟩
    · rw [he] at h
      cases h
    · have same : hash ∈ hashes ↔ hash ∈ extend hashes m := by
        by_cases hdata : m.data = []
        · simp [extend, hdata]
        · have hmem := hpass.resolve_left hdata
          exact ⟨fun h => mem_extend.2 (.inl h),
            fun h => (mem_extend.1 h).elim id fun h => h.2 ▸ hmem⟩
      rw [same]
      exact ih (hread ▸ h)
    · rw [hread] at h
      obtain ⟨more, hrest, rfl⟩ := eq_ok_of_map h
      rw [← ih hrest]
      simp [extend, hdata, or_assoc, or_left_comm]

end Message

namespace Config

variable {k : Kind}

/-- The config after the deltas of a batch, each under its hash. -/
def absorb (c : Config k) (deltas : List (String × k.Change)) : Config k :=
  ⟨(deltas.map (·.2)).foldl k.apply c.content, c.ledger.record (deltas.map (·.1))⟩

@[simp] theorem absorb_nil (c : Config k) : c.absorb [] = c := by
  simp [absorb, Ledger.record]

theorem merge_of_error {c : Config k} {batch : List Message} {e : SyncError}
    (h : Message.readBatch k.changeSchema c.ledger.hashes batch = .error e) :
    c.merge batch = (.error e, c) := by
  simp only [merge, Ledger.readBatch, h]

theorem merge_of_ok {c : Config k} {batch : List Message} {deltas : List (String × k.Change)}
    (h : Message.readBatch k.changeSchema c.ledger.hashes batch = .ok deltas) :
    c.merge batch = (.ok (deltas.map (·.1)), c.absorb deltas) := by
  simp only [merge, Ledger.readBatch, h, absorb]

/-- Of a new message alone it depends on its data what becomes. -/
theorem merge_new {c : Config k} {m : Message} (hdata : m.data ≠ []) (hhash : m.hash ≠ "")
    (hnew : m.hash ∉ c.ledger.hashes) :
    c.merge [m] =
      match k.changeSchema.decode m.data with
      | .error fault => (.error (.decode fault), c)
      | .ok change => (.ok [m.hash], c.absorb [(m.hash, change)]) := by
  rcases Message.readBatch_cons k.changeSchema c.ledger.hashes m [] with
    ⟨e, hrefuses, hread⟩ | ⟨hpass, -, -⟩ | ⟨-, change, hdecode, hread⟩
  · obtain ⟨-, ⟨hempty, -⟩ | ⟨-, -, fault, hdecode, rfl⟩⟩ := Message.refuses_zero.1 hrefuses
    · exact absurd hempty hhash
    · rw [merge_of_error hread, hdecode]
  · exact absurd hpass (not_or.2 ⟨hdata, hnew⟩)
  · rw [merge_of_ok hread, hdecode]
    rfl

/-- A batch is merged as a whole or not at all. It is refused exactly if one of its messages
refuses it, with the error of the first one, and then nothing has changed. Else the accepted
hashes are those of the new messages in order, the changes in all these messages have been applied
in order, and the ledger has got the hashes at its end. A dump is then due if one was before, or if
there were new messages. -/
theorem merge_all_or_nothing (c : Config k) (batch : List Message) :
    ((∃ e, (c.merge batch).1 = .error e) ↔
      ∃ i e, Message.Refuses k.changeSchema c.ledger.hashes batch i e) ∧
    (∀ e, (c.merge batch).1 = .error e → (c.merge batch).2 = c ∧
      ∃ i, Message.RefusesFirst k.changeSchema c.ledger.hashes batch i e) ∧
    ∀ accepted, (c.merge batch).1 = .ok accepted →
      let fresh := Message.fresh c.ledger.hashes batch
      accepted = fresh.map (·.hash) ∧
        ∃ changes, List.Forall₂ (fun m change => k.changeSchema.decode m.data = .ok change)
            fresh changes ∧
          (c.merge batch).2.content = changes.foldl k.apply c.content ∧
          (c.merge batch).2.ledger.hashes = c.ledger.hashes ++ accepted ∧
          ((c.merge batch).2.ledger.dirty = true ↔ c.ledger.dirty = true ∨ accepted ≠ []) := by
  cases h : Message.readBatch k.changeSchema c.ledger.hashes batch with
  | error e =>
    obtain ⟨i, hi⟩ := Message.refusesFirst_of_readBatch h
    rw [merge_of_error h]
    refine ⟨⟨fun _ => ⟨i, e, hi.1⟩, fun _ => ⟨e, rfl⟩⟩, ?_, nofun⟩
    intro e' he'
    cases he'
    exact ⟨rfl, i, hi⟩
  | ok deltas =>
    have hno := Message.not_refuses_of_readBatch h
    have hfresh := Message.fresh_of_readBatch h
    rw [merge_of_ok h]
    refine ⟨⟨nofun, fun ⟨i, e, hr⟩ => absurd hr (hno i e)⟩, nofun, ?_⟩
    intro accepted hok fresh
    obtain rfl := Except.ok.inj hok
    have hhashes : deltas.map (·.1) = fresh.map (·.hash) := by
      rw [← List.forall₂_eq_eq_eq, List.forall₂_map_left_iff, List.forall₂_map_right_iff]
      exact hfresh.flip.imp fun d m hm => hm.1.symm
    have hdecode : List.Forall₂ (fun m change => k.changeSchema.decode m.data = .ok change)
        fresh (deltas.map (·.2)) :=
      List.forall₂_map_right_iff.2 (hfresh.imp fun m d hm => hm.2)
    exact ⟨hhashes, _, hdecode, rfl, rfl, by simp [absorb, Ledger.record]⟩

end Config
end SyncedConfig
