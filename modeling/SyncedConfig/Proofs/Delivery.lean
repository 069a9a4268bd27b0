import SyncedConfig.Host.Merge
import SyncedConfig.Proofs.Batch

/-!
# Batches and single messages

Messages may arrive in one batch, in several batches or one by one. As long as none is
refused this makes no difference. A refused message keeps its whole batch out, while one by
one the messages before it stay merged.
-/
namespace SyncedConfig

variable {δ : Type}

namespace Message

theorem readBatch_append (schema : Schema δ) (hashes : List String) (before after : List Message) :
    readBatch schema hashes (before ++ after) =
      match readBatch schema hashes before with
      | .error e => .error e
      | .ok deltas =>
        (readBatch schema (hashes ++ deltas.map (·.1)) after).map (deltas ++ ·) := by
  induction before generalizing hashes with
  | nil => cases h : readBatch schema hashes after <;> simp [readBatch, h, Except.map]
  | cons m before ih =>
    by_cases hdata : m.data = []
    · simpa [readBatch, hdata] using ih hashes
    by_cases hempty : m.hash = ""
    · simp [readBatch, hdata, hempty]
    by_cases hmem : m.hash ∈ hashes
    · simpa [readBatch, hdata, hempty, hmem] using ih hashes
    cases hdecode : schema.decode m.data with
    | error fault => simp [readBatch, hdata, hempty, hmem, hdecode]
    | ok delta =>
      simp only [List.cons_append, readBatch, List.isEmpty_iff, hdata, hempty, hmem, hdecode,
        if_false, ih (m.hash :: hashes)]
      cases readBatch schema (m.hash :: hashes) before with
      | error e => rfl
      | ok deltas =>
        have same : readBatch schema (m.hash :: (hashes ++ deltas.map (·.1))) after =
            readBatch schema (hashes ++ ((m.hash, delta) :: deltas).map (·.1)) after :=
          readBatch_congr (by simp [or_left_comm])
        simp only [bind, Except.bind, pure, Except.pure, List.cons_append, same]
        cases readBatch schema (hashes ++ ((m.hash, delta) :: deltas).map (·.1)) after <;> rfl

/-- A message of which a batch of its own consists is new or not. -/
theorem readBatch_singleton {schema : Schema δ} {hashes : List String} {m : Message}
    {deltas : List (String × δ)} (h : readBatch schema hashes [m] = .ok deltas) :
    deltas.length ≤ 1 := by
  rcases readBatch_cons schema hashes m [] with
    ⟨e, -, he⟩ | ⟨-, -, hread⟩ | ⟨-, delta, -, hread⟩
  · rw [he] at h
    cases h
  · rw [hread] at h
    cases h
    exact Nat.zero_le 1
  · rw [hread] at h
    cases h
    exact Nat.le_refl 1

theorem readBatch_of_refuses_zero {schema : Schema δ} {hashes : List String} {m : Message}
    {rest : List Message} {e : SyncError} (h : Refuses schema hashes (m :: rest) 0 e) :
    readBatch schema hashes (m :: rest) = .error e := by
  obtain ⟨hdata, ⟨hempty, rfl⟩ | ⟨hempty, hmem, fault, hdecode, rfl⟩⟩ := refuses_zero.1 h
  · simp [readBatch, hdata, hempty]
  · simp [readBatch, hdata, hempty, hmem, hdecode]

/-- The messages before the first one that refuses a batch can be read. -/
theorem readBatch_take_of_refusesFirst {schema : Schema δ} {hashes : List String}
    {batch : List Message} {i : Nat} {e : SyncError} (h : RefusesFirst schema hashes batch i e) :
    ∃ deltas, readBatch schema hashes (batch.take i) = .ok deltas := by
  cases hread : readBatch schema hashes (batch.take i) with
  | ok deltas => exact ⟨deltas, rfl⟩
  | error e' =>
    obtain ⟨j, ⟨m, hm, hdata, hcase⟩, -⟩ := refusesFirst_of_readBatch hread
    obtain ⟨hj, hm⟩ : j < i ∧ batch[j]? = some m := by
      simpa [List.getElem?_take] using hm
    have hprefix : (batch.take i).take j = batch.take j := by
      rw [List.take_take, Nat.min_eq_left (Nat.le_of_lt hj)]
    refine absurd ⟨m, hm, hdata, ?_⟩ (h.2 j hj e')
    simpa only [Known, hprefix] using hcase

end Message

namespace Config

variable {k : Kind}

/-- Merges batches one after the other until one is refused. -/
def mergeInTurn (c : Config k) : List (List Message) → Except SyncError (List String) × Config k
  | [] => (.ok [], c)
  | batch :: rest =>
    match c.merge batch with
    | (.error e, c) => (.error e, c)
    | (.ok accepted, c) =>
      let (result, c) := c.mergeInTurn rest
      (result.map (accepted ++ ·), c)

theorem absorb_absorb (c : Config k) (deltas more : List (String × k.Change)) :
    (c.absorb deltas).absorb more = c.absorb (deltas ++ more) := by
  cases deltas <;> simp [absorb, Ledger.record]

/-- Merging a batch whole is merging a first part and then the rest, unless one is refused. -/
theorem merge_append (c : Config k) (before after : List Message) :
    c.merge (before ++ after) =
      match c.merge before with
      | (.error e, _) => (.error e, c)
      | (.ok accepted, c') =>
        match c'.merge after with
        | (.error e, _) => (.error e, c)
        | (.ok more, c'') => (.ok (accepted ++ more), c'') := by
  have whole := Message.readBatch_append k.changeSchema c.ledger.hashes before after
  cases hbefore : Message.readBatch k.changeSchema c.ledger.hashes before with
  | error e =>
    rw [hbefore] at whole
    rw [merge_of_error whole, merge_of_error hbefore]
  | ok deltas =>
    rw [hbefore] at whole
    rw [merge_of_ok hbefore]
    cases hafter : Message.readBatch k.changeSchema (c.absorb deltas).ledger.hashes after with
    | error e =>
      have refused :
          Message.readBatch k.changeSchema c.ledger.hashes (before ++ after) = .error e :=
        whole.trans (congrArg (Except.map (deltas ++ ·)) hafter)
      rw [merge_of_error refused]
      simp only [merge_of_error hafter]
    | ok more =>
      have read : Message.readBatch k.changeSchema c.ledger.hashes (before ++ after) =
          .ok (deltas ++ more) :=
        whole.trans (congrArg (Except.map (deltas ++ ·)) hafter)
      rw [merge_of_ok read]
      simp only [merge_of_ok hafter, absorb_absorb, List.map_append]

/-- Batches that are all merged in turn have the effect of one that contains them all. -/
theorem mergeInTurn_iff (c : Config k) (batches : List (List Message)) (accepted : List String)
    (c' : Config k) :
    c.mergeInTurn batches = (.ok accepted, c') ↔ c.merge batches.flatten = (.ok accepted, c') := by
  induction batches generalizing c accepted with
  | nil => simp [mergeInTurn, merge, Ledger.readBatch, Message.readBatch, Ledger.record]
  | cons batch rest ih =>
    rw [List.flatten_cons, merge_append, mergeInTurn]
    rcases c.merge batch with ⟨e | first, c₁⟩
    · simp
    simp only
    constructor
    · intro h
      rcases hturn : c₁.mergeInTurn rest with ⟨e | more, c₂⟩
      · simp [hturn, Except.map] at h
      · obtain ⟨rfl, rfl⟩ : first ++ more = accepted ∧ c₂ = c' := by
          simpa [hturn, Except.map] using h
        rw [(ih c₁ more).1 hturn]
    · intro h
      rcases hmerge : c₁.merge rest.flatten with ⟨e | more, c₂⟩
      · simp [hmerge] at h
      · obtain ⟨rfl, rfl⟩ : first ++ more = accepted ∧ c₂ = c' := by
          simpa [hmerge] using h
        rw [(ih c₁ more).2 hmerge]
        rfl

/-- Before the first message that refuses a batch all are merged, and then it is refused. -/
theorem merge_take_of_refusesFirst {c : Config k} {batch : List Message} {i : Nat} {e : SyncError}
    (h : Message.RefusesFirst k.changeSchema c.ledger.hashes batch i e) :
    ∃ accepted c' m rest, batch = batch.take i ++ m :: rest ∧
      c.merge (batch.take i) = (.ok accepted, c') ∧ c'.merge [m] = (.error e, c') := by
  obtain ⟨deltas, hread⟩ := Message.readBatch_take_of_refusesFirst h
  obtain ⟨⟨m, hm, hdata, hcase⟩, -⟩ := h
  have hrefuses : Message.Refuses k.changeSchema (c.absorb deltas).ledger.hashes [m] 0 e := by
    have known : m.hash ∈ (c.absorb deltas).ledger.hashes ↔
        Message.Known c.ledger.hashes batch i m.hash :=
      List.mem_append.trans (Message.mem_readBatch_iff hread)
    exact Message.refuses_zero.2 ⟨hdata, by simpa only [known] using hcase⟩
  obtain ⟨hi, hget⟩ := List.getElem?_eq_some_iff.1 hm
  refine ⟨_, _, m, batch.drop (i + 1), ?_, merge_of_ok hread,
    merge_of_error (Message.readBatch_of_refuses_zero hrefuses)⟩
  rw [← hget, List.getElem_cons_drop, List.take_append_drop]

theorem merge_singleton_length {c c' : Config k} {m : Message} {accepted : List String}
    (h : c.merge [m] = (.ok accepted, c')) : (!accepted.isEmpty).toNat = accepted.length := by
  cases hread : Message.readBatch k.changeSchema c.ledger.hashes [m] with
  | error e => simp [merge_of_error hread] at h
  | ok deltas =>
    have hlength := Message.readBatch_singleton hread
    obtain ⟨rfl, -⟩ : deltas.map (·.1) = accepted ∧ c.absorb deltas = c' := by
      simpa [merge_of_ok hread] using h
    rcases deltas with _ | ⟨d, _ | ⟨d', rest⟩⟩
    · rfl
    · rfl
    · simp at hlength

end Config

namespace Handle

variable {k : Kind}

theorem merge_config (c : Config k) (m : Message) :
    (config k c).merge m =
      match c.merge [m] with
      | (.ok accepted, c') => (.ok (!accepted.isEmpty), config k c')
      | (.error e, c') => (.error (.merge e), config k c') := by
  rw [merge, mergeBatch]
  rcases c.merge [m] with ⟨e | accepted, c'⟩ <;> rfl

/-- Messages that can be merged as a batch are merged one by one, and counted. -/
theorem mergeEach_append {c c' : Config k} {before : List Message} {accepted : List String}
    (h : c.merge before = (.ok accepted, c')) (after : List Message) :
    (config k c).mergeEach (before ++ after) =
      (((config k c').mergeEach after).1.map (· + accepted.length),
        ((config k c').mergeEach after).2) := by
  induction before generalizing c accepted with
  | nil =>
    obtain ⟨rfl, rfl⟩ : [] = accepted ∧ c = c' := by
      simpa [Config.merge, Ledger.readBatch, Message.readBatch, Ledger.record] using h
    cases hafter : (config k c).mergeEach after with
    | mk result h => cases result <;> simp [hafter, Except.map]
  | cons m before ih =>
    rw [← List.singleton_append, Config.merge_append] at h
    rcases hm : c.merge [m] with ⟨e | first, c₁⟩
    · simp [hm] at h
    rcases hbefore : c₁.merge before with ⟨e | more, c₂⟩
    · simp [hm, hbefore] at h
    obtain ⟨rfl, rfl⟩ : first ++ more = accepted ∧ c₂ = c' := by
      simpa [hm, hbefore] using h
    rw [List.cons_append, mergeEach, merge_config, hm]
    simp only [ih hbefore, Config.merge_singleton_length hm, List.length_append]
    cases ((config k c₂).mergeEach after).1 with
    | error e => rfl
    | ok n => simp only [Except.map, Nat.add_assoc, Nat.add_comm more.length]

/-- Merging messages in one batch, in several and one by one compare as follows. A batch that
is merged is merged one by one with the same count and result. Of a batch that is refused
nothing is merged, while one by one exactly the messages before the first refused one are, as
if they were a batch of their own, and the error is the same. A batch is merged if and only if
its parts are merged in turn, however it is split, with the same hashes and result. -/
theorem merge_agrees_mergeEach (c : Config k) (batch : List Message) :
    (∀ accepted c', c.merge batch = (.ok accepted, c') →
      (config k c).mergeEach batch = (.ok accepted.length, config k c')) ∧
    (∀ e c', c.merge batch = (.error e, c') → c' = c ∧ ∃ i accepted c'',
      Message.RefusesFirst k.changeSchema c.ledger.hashes batch i e ∧
      c.merge (batch.take i) = (.ok accepted, c'') ∧
      (config k c).mergeEach batch = (.error (.merge e), config k c'')) ∧
    ∀ parts accepted c', parts.flatten = batch →
      (c.merge batch = (.ok accepted, c') ↔ c.mergeInTurn parts = (.ok accepted, c')) := by
  refine ⟨fun accepted c' h => ?_, fun e c' h => ?_, fun parts accepted c' hparts => ?_⟩
  · have each := mergeEach_append h []
    simpa [mergeEach, Except.map] using each
  · cases hread : Message.readBatch k.changeSchema c.ledger.hashes batch with
    | ok deltas => simp [Config.merge_of_ok hread] at h
    | error e' =>
      obtain ⟨rfl, rfl⟩ : e' = e ∧ c = c' := by
        simpa [Config.merge_of_error hread] using h
      obtain ⟨i, hi⟩ := Message.refusesFirst_of_readBatch hread
      obtain ⟨accepted, c'', m, rest, hsplit, hbefore, hm⟩ := Config.merge_take_of_refusesFirst hi
      refine ⟨rfl, i, accepted, c'', hi, hbefore, ?_⟩
      have refused : (config k c'').mergeEach (m :: rest) = (.error (.merge e'), config k c'') := by
        rw [mergeEach, merge_config, hm]
      rw [hsplit, mergeEach_append hbefore, refused]
      rfl
  · rw [← hparts, Config.mergeInTurn_iff]

end Handle
end SyncedConfig
