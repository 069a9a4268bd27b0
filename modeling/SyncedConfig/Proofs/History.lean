import SyncedConfig.Proofs.Batch
import SyncedConfig.Proofs.Run

/-!
# The ledger explains the content

The history of a run is the list of its edits and of the hashes that its merges accepted,
each at its place. Executing the edits, and for each hash the one delta that was first
delivered under it, leads to the content that the config has at the end. The ledger lists
exactly the hashes of this history, none of them empty and none twice.
-/
namespace SyncedConfig

variable {δ : Type} {k : Kind}

namespace Message

/-- The delta in the first message with data under a hash. -/
def deltaUnder (schema : Schema δ) (messages : List Message) (hash : String) : Option δ :=
  (messages.find? fun m => m.data ≠ [] ∧ m.hash = hash).bind fun m =>
    (schema.decode m.data).toOption

variable {schema : Schema δ} {hashes : List String} {batch : List Message} {m : Message}
  {rest : List Message} {deltas : List (String × δ)} {hash : String}

theorem deltaUnder_cons_of_ne (h : ¬ (m.data ≠ [] ∧ m.hash = hash)) :
    deltaUnder schema (m :: rest) hash = deltaUnder schema rest hash := by
  rw [deltaUnder, List.find?_cons_of_neg (by simpa using h), deltaUnder]

theorem deltaUnder_cons_self (h : m.data ≠ []) :
    deltaUnder schema (m :: rest) m.hash = (schema.decode m.data).toOption := by
  rw [deltaUnder, List.find?_cons_of_pos (by simpa using h)]
  rfl

theorem deltaUnder_append_of_mem {later : List Message}
    (h : ∃ m ∈ batch, m.data ≠ [] ∧ m.hash = hash) :
    deltaUnder schema (batch ++ later) hash = deltaUnder schema batch hash := by
  have found : (batch.find? fun m => m.data ≠ [] ∧ m.hash = hash).isSome := by
    simpa [List.find?_isSome] using h
  rw [deltaUnder, List.find?_append, Option.or_of_isSome found, deltaUnder]

theorem deltaUnder_append_of_not_mem {later : List Message}
    (h : ¬ ∃ m ∈ batch, m.data ≠ [] ∧ m.hash = hash) :
    deltaUnder schema (batch ++ later) hash = deltaUnder schema later hash := by
  have missing : (batch.find? fun m => m.data ≠ [] ∧ m.hash = hash) = none := by
    simpa [List.find?_eq_none] using h
  rw [deltaUnder, List.find?_append, missing, Option.none_or, deltaUnder]

/-- The delta under a hash is read from a message with this hash. -/
theorem exists_decode_of_deltaUnder {delta : δ} (h : deltaUnder schema batch hash = some delta) :
    ∃ m ∈ batch, (m.data ≠ [] ∧ m.hash = hash) ∧ schema.decode m.data = .ok delta := by
  obtain ⟨m, hfirst, hdelta⟩ := Option.bind_eq_some_iff.1 h
  refine ⟨m, List.mem_of_find?_eq_some hfirst, by simpa using List.find?_some hfirst, ?_⟩
  cases hdecode : schema.decode m.data with
  | error e => simp [hdecode, Except.toOption] at hdelta
  | ok other => simpa [hdecode, Except.toOption] using hdelta

/-- An accepted hash was not known and is not empty, and its delta is the first under it. -/
theorem of_mem_readBatch (h : readBatch schema hashes batch = .ok deltas) {d : String × δ}
    (hd : d ∈ deltas) :
    d.1 ∉ hashes ∧ d.1 ≠ "" ∧ deltaUnder schema batch d.1 = some d.2 := by
  induction batch generalizing hashes deltas with
  | nil =>
    cases h
    cases hd
  | cons m rest ih =>
    have skip (hnew : d.1 ∉ extend hashes m) :
        d.1 ∉ hashes ∧ deltaUnder schema (m :: rest) d.1 = deltaUnder schema rest d.1 := by
      by_cases hdata : m.data = []
      · exact ⟨by simpa [extend, hdata] using hnew, deltaUnder_cons_of_ne (by simp [hdata])⟩
      · have hnew : d.1 ≠ m.hash ∧ d.1 ∉ hashes := by simpa [extend, hdata] using hnew
        exact ⟨hnew.2, deltaUnder_cons_of_ne fun hm => hnew.1 hm.2.symm⟩
    rcases readBatch_cons schema hashes m rest with
      ⟨e, -, he⟩ | ⟨-, -, hread⟩ | ⟨⟨hdata, hne, hmem⟩, delta, hdecode, hread⟩
    · rw [he] at h
      cases h
    · obtain ⟨hnew, hempty, hdelta⟩ := ih (hread ▸ h) hd
      obtain ⟨hhashes, heq⟩ := skip hnew
      exact ⟨hhashes, hempty, heq.trans hdelta⟩
    · rw [hread] at h
      obtain ⟨more, hrest, rfl⟩ := eq_ok_of_map h
      rcases List.mem_cons.1 hd with rfl | hd
      · exact ⟨hmem, hne, by rw [deltaUnder_cons_self hdata, hdecode]; rfl⟩
      · obtain ⟨hnew, hempty, hdelta⟩ := ih hrest hd
        obtain ⟨hhashes, heq⟩ := skip hnew
        exact ⟨hhashes, hempty, heq.trans hdelta⟩

theorem nodup_readBatch (h : readBatch schema hashes batch = .ok deltas) :
    (deltas.map (·.1)).Nodup := by
  induction batch generalizing hashes deltas with
  | nil =>
    cases h
    exact .nil
  | cons m rest ih =>
    rcases readBatch_cons schema hashes m rest with
      ⟨e, -, he⟩ | ⟨-, -, hread⟩ | ⟨⟨hdata, -, -⟩, delta, -, hread⟩
    · rw [he] at h
      cases h
    · exact ih (hread ▸ h)
    · rw [hread] at h
      obtain ⟨more, hrest, rfl⟩ := eq_ok_of_map h
      refine List.nodup_cons.2 ⟨fun hm => ?_, ih hrest⟩
      obtain ⟨d, hd, heq⟩ := List.mem_map.1 hm
      refine (of_mem_readBatch hrest hd).1 ?_
      simp [extend, hdata, heq]

end Message

/-- What changes the content in the course of a run: an edit, or the delta under a hash. -/
inductive Event (k : Kind)
  | edit (e : Edit k)
  | delta (hash : String)

namespace Event

def edit? : Event k → Option (Edit k)
  | edit e => some e
  | delta _ => none

def hash? : Event k → Option String
  | edit _ => none
  | delta hash => some hash

def perform (delta? : String → Option k.Change) (content : k.Content) : Event k → k.Content
  | edit e => e.effect content
  | delta hash =>
    match delta? hash with
    | some d => k.apply content d
    | none => content

/-- Only the deltas under the hashes of a history matter for its execution. -/
theorem foldl_perform_congr {f g : String → Option k.Change} {history : List (Event k)}
    (h : ∀ hash ∈ history.filterMap hash?, f hash = g hash) (content : k.Content) :
    history.foldl (perform f) content = history.foldl (perform g) content := by
  induction history generalizing content with
  | nil => rfl
  | cons event history ih =>
    have head : perform f content event = perform g content event := by
      cases event with
      | edit e => rfl
      | delta hash => simp only [perform, h hash (by simp [hash?])]
    rw [List.foldl_cons, List.foldl_cons, head]
    refine ih (fun hash hmem => h hash ?_) _
    obtain ⟨event', hevent, heq⟩ := List.mem_filterMap.1 hmem
    exact List.mem_filterMap.2 ⟨event', List.mem_cons_of_mem _ hevent, heq⟩

theorem foldl_perform_deltas {f : String → Option k.Change} {deltas : List (String × k.Change)}
    (h : ∀ d ∈ deltas, f d.1 = some d.2) (content : k.Content) :
    ((deltas.map (·.1)).map delta).foldl (perform f) content =
      (deltas.map (·.2)).foldl k.apply content := by
  induction deltas generalizing content with
  | nil => rfl
  | cons d deltas ih =>
    simp only [List.map_cons, List.foldl_cons, perform, h d (List.mem_cons_self ..)]
    exact ih (fun d hd => h d (List.mem_cons_of_mem _ hd)) _

end Event

def Action.edit? : Action k → Option (Edit k)
  | .edit e => some e
  | _ => none

namespace Config

def returned (c : Config k) : Action k → List String
  | .merge batch => (c.merge batch).1.toOption.getD []
  | _ => []

def delivered (c : Config k) : Action k → List Message
  | .merge batch => if (c.merge batch).1.toOption.isSome then batch else []
  | _ => []

def events (c : Config k) : Action k → List (Event k)
  | .edit e => [.edit e]
  | .merge batch => (c.returned (.merge batch)).map .delta
  | .markDumped => []

/-- A history explains how a config came about from an earlier one, given all messages that
were delivered in between. -/
structure Explains (start c : Config k) (messages : List Message) (history : List (Event k)) :
    Prop where
  hashes_eq : history.filterMap Event.hash? = c.ledger.hashes
  nonempty : ∀ hash ∈ c.ledger.hashes, hash ≠ ""
  nodup : c.ledger.hashes.Nodup
  mem_iff : ∀ hash, hash ∈ c.ledger.hashes ↔ ∃ m ∈ messages, m.data ≠ [] ∧ m.hash = hash
  readable : ∀ hash ∈ c.ledger.hashes, (Message.deltaUnder k.changeSchema messages hash).isSome
  content_eq : c.content =
    history.foldl (Event.perform (Message.deltaUnder k.changeSchema messages)) start.content

namespace Explains

variable {start c : Config k} {messages : List Message} {history : List (Event k)}

theorem refl (h : c.ledger.hashes = []) : Explains c c [] [] where
  hashes_eq := h.symm
  nonempty := by simp [h]
  nodup := by simp [h]
  mem_iff := by simp [h]
  readable := by simp [h]
  content_eq := rfl

theorem perform (h : Explains start c messages history) (e : Edit k) :
    Explains start (c.perform e) messages (history ++ [.edit e]) where
  hashes_eq := by rw [perform_hashes, ← h.hashes_eq]; simp [Event.hash?]
  nonempty := by simpa only [perform_hashes] using h.nonempty
  nodup := by simpa only [perform_hashes] using h.nodup
  mem_iff := by simpa only [perform_hashes] using h.mem_iff
  readable := by simpa only [perform_hashes] using h.readable
  content_eq := by rw [perform_content, h.content_eq, List.foldl_append]; rfl

theorem absorb (h : Explains start c messages history) {batch : List Message}
    {deltas : List (String × k.Change)}
    (hread : Message.readBatch k.changeSchema c.ledger.hashes batch = .ok deltas) :
    Explains start (c.absorb deltas) (messages ++ batch)
      (history ++ (deltas.map (·.1)).map .delta) := by
  have ledger : (c.absorb deltas).ledger.hashes = c.ledger.hashes ++ deltas.map (·.1) := rfl
  have hold (hash : String) (hmem : hash ∈ c.ledger.hashes) :
      Message.deltaUnder k.changeSchema (messages ++ batch) hash =
        Message.deltaUnder k.changeSchema messages hash :=
    Message.deltaUnder_append_of_mem ((h.mem_iff hash).1 hmem)
  have hnew (d : String × k.Change) (hd : d ∈ deltas) :
      Message.deltaUnder k.changeSchema (messages ++ batch) d.1 = some d.2 := by
    obtain ⟨hmem, -, hdelta⟩ := Message.of_mem_readBatch hread hd
    rw [Message.deltaUnder_append_of_not_mem fun hm => hmem ((h.mem_iff _).2 hm), hdelta]
  refine ⟨?_, ?_, ?_, ?_, ?_, ?_⟩
  · rw [ledger, List.filterMap_append, h.hashes_eq, List.filterMap_map]
    simp [Function.comp_def, Event.hash?]
  · intro hash hmem
    rcases List.mem_append.1 (ledger ▸ hmem) with hmem | hmem
    · exact h.nonempty hash hmem
    · obtain ⟨d, hd, rfl⟩ := List.mem_map.1 hmem
      exact (Message.of_mem_readBatch hread hd).2.1
  · rw [ledger]
    refine List.nodup_append.2 ⟨h.nodup, Message.nodup_readBatch hread, ?_⟩
    intro hash hmem hash' hmem' heq
    obtain ⟨d, hd, rfl⟩ := List.mem_map.1 hmem'
    exact (Message.of_mem_readBatch hread hd).1 (heq ▸ hmem)
  · intro hash
    rw [ledger, List.mem_append, Message.mem_readBatch_iff hread, h.mem_iff]
    simp only [List.mem_append, or_and_right, exists_or]
  · intro hash hmem
    rcases List.mem_append.1 (ledger ▸ hmem) with hmem | hmem
    · rw [hold hash hmem]
      exact h.readable hash hmem
    · obtain ⟨d, hd, rfl⟩ := List.mem_map.1 hmem
      rw [hnew d hd]
      rfl
  · rw [List.foldl_append, Event.foldl_perform_deltas hnew,
      Event.foldl_perform_congr (h.hashes_eq ▸ hold), ← h.content_eq]
    rfl

theorem act (h : Explains start c messages history) (a : Action k) :
    Explains start (c.act a) (messages ++ c.delivered a) (history ++ c.events a) := by
  cases a with
  | edit e => simpa only [Config.act, delivered, events, List.append_nil] using h.perform e
  | markDumped =>
    have marked : Explains start c.markDumped messages history := { h with }
    simpa only [Config.act, delivered, events, List.append_nil] using marked
  | merge batch =>
    cases hread : Message.readBatch k.changeSchema c.ledger.hashes batch with
    | error e =>
      simpa [Config.act, delivered, events, returned, merge_of_error hread, Except.toOption] using h
    | ok deltas =>
      simp only [Config.act, delivered, events, returned, merge_of_ok hread, Except.toOption]
      exact h.absorb hread

theorem run (h : Explains start c messages history) (actions : List (Action k)) :
    Explains start (c.run actions) (messages ++ c.along delivered actions)
      (history ++ c.along events actions) := by
  induction actions generalizing c messages history with
  | nil => simpa [along] using h
  | cons a actions ih =>
    rw [run_cons, along, along, ← List.append_assoc, ← List.append_assoc]
    exact ih (h.act a)

end Explains

theorem hashes_run (c : Config k) (actions : List (Action k)) :
    (c.run actions).ledger.hashes = c.ledger.hashes ++ c.along returned actions := by
  induction actions generalizing c with
  | nil => simp [along]
  | cons a actions ih =>
    have step : (c.act a).ledger.hashes = c.ledger.hashes ++ c.returned a := by
      cases a with
      | edit e => simpa [act, returned] using perform_hashes c e
      | markDumped => simp [returned, act, markDumped, Ledger.markDumped]
      | merge batch =>
        cases hread : Message.readBatch k.changeSchema c.ledger.hashes batch with
        | error e => simp [act, returned, merge_of_error hread, Except.toOption]
        | ok deltas =>
          simp [act, returned, merge_of_ok hread, Except.toOption, absorb, Ledger.record]
    rw [run_cons, along, ih, step, List.append_assoc]

theorem edits_along (c : Config k) (actions : List (Action k)) :
    (c.along events actions).filterMap Event.edit? = actions.filterMap Action.edit? := by
  induction actions generalizing c with
  | nil => rfl
  | cons a actions ih =>
    have step : (c.events a).filterMap Event.edit? = (Action.edit? a).toList := by
      cases a with
      | edit e => rfl
      | markDumped => rfl
      | merge batch => simp [events, Action.edit?, List.filterMap_eq_nil_iff, Event.edit?]
    rw [along, List.filterMap_append, ih, step]
    cases h : a.edit? <;> simp [h]

theorem hashes_of_create {id : String} {start : Config k} (h : create k id = .ok start) :
    start.ledger.hashes = [] := by
  rw [ledger_of_create h]

/-- In a config that has gone through any run since its creation, the ledger lists what the
merges returned, in order, each hash once and none of them empty, and has only grown at its
end. The content results from the edits of the run and one delta for each hash of the ledger,
in the order in which they came: the delta in the first message with data that a merge took
under that hash. -/
theorem ledger_explains_content {id : String} {start : Config k} (h : create k id = .ok start)
    (actions : List (Action k)) :
    let hashes := (start.run actions).ledger.hashes
    let history := start.along events actions
    let delta? := Message.deltaUnder k.changeSchema (start.along delivered actions)
    hashes = start.along returned actions ∧
    (∀ hash ∈ hashes, hash ≠ "") ∧ hashes.Nodup ∧
    (∀ before after, actions = before ++ after →
      (start.run before).ledger.hashes <+: hashes) ∧
    history.filterMap Event.edit? = actions.filterMap Action.edit? ∧
    history.filterMap Event.hash? = hashes ∧
    (∀ hash ∈ hashes, (delta? hash).isSome) ∧
    (start.run actions).content = history.foldl (Event.perform delta?) start.content := by
  intro hashes history delta?
  have created := hashes_of_create h
  have explained : Explains start (start.run actions) (start.along delivered actions) history :=
    (Explains.refl created).run actions
  refine ⟨?_, explained.nonempty, explained.nodup, ?_, edits_along start actions,
    explained.hashes_eq, explained.readable, explained.content_eq⟩
  · simpa [created] using hashes_run start actions
  · rintro before after rfl
    have grown := hashes_run (start.run before) after
    rw [← run_append] at grown
    exact ⟨_, grown.symm⟩

theorem contacts_history_explained :
    let start : Config .contacts := { content := {} }
    let actions : List (Action .contacts) :=
      [.merge [⟨"a", [0x7b, 0x7d]⟩, ⟨"a", [0x21]⟩, ⟨"", []⟩], .edit (.erase "x"),
        .merge [⟨"b", [0x21]⟩]]
    create .contacts "" = .ok start ∧ (start.run actions).ledger.hashes = ["a"] ∧
      (start.run actions).content = (start.along events actions).foldl
        (Event.perform (Message.deltaUnder (Kind.changeSchema .contacts)
          (start.along delivered actions))) start.content :=
  have h : create .contacts "" = .ok { content := {} } := rfl
  ⟨h, rfl, (ledger_explains_content h _).2.2.2.2.2.2.2⟩

end Config
end SyncedConfig
