import SyncedConfig.Proofs.Collection.Transfer
import SyncedConfig.Proofs.Delivery

/-!
# Independent deltas

A delta decides what is found under the keys that it touches, regardless of what was found there,
and leaves all other keys alone. So deltas that touch different keys may come in any order and in
any batches.
-/
namespace SyncedConfig

namespace Message

variable {δ : Type}

/-- The change that a message brings under its hash, if it can be read. -/
def carried (schema : Schema δ) (m : Message) : Option (String × δ) :=
  (schema.decode m.data).toOption.map fun change => (m.hash, change)

theorem decode_of_carried {schema : Schema δ} {m : Message} {change : String × δ}
    (h : carried schema m = some change) : schema.decode m.data = .ok change.2 := by
  cases hread : schema.decode m.data with
  | error e => simp [carried, hread, Except.toOption] at h
  | ok d =>
    have heq : (m.hash, d) = change := by
      simpa [carried, hread, Except.toOption] using h
    rw [← heq]

/-- Readable messages under different new hashes are all read. -/
theorem readBatch_of_new {schema : Schema δ} (hempty : ∀ d, schema.decode [] ≠ .ok d)
    {known : List String} {messages : List Message} (hdistinct : (messages.map (·.hash)).Nodup)
    (hnew : ∀ m ∈ messages, m.hash ≠ "" ∧ m.hash ∉ known)
    (hreadable : ∀ m ∈ messages, ∃ d, schema.decode m.data = .ok d) :
    readBatch schema known messages = .ok (messages.filterMap (carried schema)) ∧
      (messages.filterMap (carried schema)).map (·.1) = messages.map (·.hash) := by
  induction messages generalizing known with
  | nil => exact ⟨rfl, rfl⟩
  | cons m rest ih =>
    obtain ⟨hm, hrest⟩ := List.nodup_cons.1 hdistinct
    obtain ⟨⟨hne, hmem⟩, hnews⟩ := List.forall_mem_cons.1 hnew
    obtain ⟨⟨d, hdecode⟩, hreadables⟩ := List.forall_mem_cons.1 hreadable
    have hdata : m.data ≠ [] := fun hdata => hempty d (hdata ▸ hdecode)
    have hknown : ∀ m' ∈ rest, m'.hash ≠ "" ∧ m'.hash ∉ m.hash :: known := by
      intro m' hm'
      obtain ⟨hne', hmem'⟩ := hnews m' hm'
      have hother : m'.hash ≠ m.hash := fun heq => hm (List.mem_map.2 ⟨m', hm', heq⟩)
      exact ⟨hne', by simp [hother, hmem']⟩
    obtain ⟨hread, hhashes⟩ := ih hrest hknown hreadables
    have hcarried : carried schema m = some (m.hash, d) := by
      simp [carried, hdecode, Except.toOption]
    rw [List.filterMap_cons_some hcarried, List.map_cons, hhashes, List.map_cons]
    refine ⟨?_, rfl⟩
    simp only [readBatch, List.isEmpty_iff, hdata, hne, hmem, hdecode, hread, if_false]
    rfl

end Message

variable {c : CollectionKind}

namespace EntryChange

/-- The keys that a delta touches: those of the records that it puts, and those that it erases. -/
def touched (d : Delta c.Key c.Record) : List c.Key := d.set.map c.keyOf ++ d.erase

/-- Two deltas touch no key in common. -/
def Apart (d e : Delta c.Key c.Record) : Prop := ∀ key ∈ touched d, key ∉ touched e

instance (d e : Delta c.Key c.Record) : Decidable (Apart d e) :=
  inferInstanceAs (Decidable (∀ key ∈ touched d, key ∉ touched e))

theorem Apart.symm {d e : Delta c.Key c.Record} (h : Apart d e) : Apart e d :=
  fun key he hd => h key hd he

theorem get?_apply_of_not_mem {d : Delta c.Key c.Record} {key : c.Key} (h : key ∉ touched d)
    (records : c.Records) : (d.apply c.keyOf records).get? key = records.get? key := by
  obtain ⟨hset, herase⟩ : key ∉ d.set.map c.keyOf ∧ key ∉ d.erase := by
    simpa [touched] using h
  have hnone : (d.set.reverse.find? fun record => c.keyOf record = key) = none := by
    refine List.find?_eq_none.2 fun record hrecord heq => hset ?_
    exact List.mem_map.2 ⟨record, List.mem_reverse.1 hrecord, by simpa using heq⟩
  rw [Delta.get?_apply, if_neg herase, hnone, Option.none_or]

/-- What is found under a key that a delta touches does not depend on what was found before. -/
theorem get?_apply_of_mem {d : Delta c.Key c.Record} {key : c.Key} (h : key ∈ touched d)
    (records others : c.Records) :
    (d.apply c.keyOf records).get? key = (d.apply c.keyOf others).get? key := by
  rw [Delta.get?_apply, Delta.get?_apply]
  by_cases herase : key ∈ d.erase
  · rw [if_pos herase, if_pos herase]
  · have hset : key ∈ d.set.map c.keyOf := (List.mem_append.1 h).resolve_right herase
    obtain ⟨record, hrecord, hkey⟩ := List.mem_map.1 hset
    have hfound : (d.set.reverse.find? fun record => c.keyOf record = key).isSome := by
      refine List.find?_isSome.2 ⟨record, List.mem_reverse.2 hrecord, ?_⟩
      exact decide_eq_true hkey
    rw [if_neg herase, if_neg herase, Option.or_of_isSome hfound, Option.or_of_isSome hfound]

/-- Deltas that touch no key in common may change places. -/
theorem apply_comm {d e : Delta c.Key c.Record} (h : Apart d e) (records : c.Records) :
    e.apply c.keyOf (d.apply c.keyOf records) = d.apply c.keyOf (e.apply c.keyOf records) := by
  refine KeyMap.ext_get? fun key => ?_
  by_cases hd : key ∈ touched d
  · rw [get?_apply_of_not_mem (h key hd)]
    exact get?_apply_of_mem hd ..
  · rw [get?_apply_of_not_mem hd]
    by_cases he : key ∈ touched e
    · exact get?_apply_of_mem he ..
    · rw [get?_apply_of_not_mem he, get?_apply_of_not_mem he, get?_apply_of_not_mem hd]

end EntryChange

namespace Message

/-- Messages that bring readable deltas under different new hashes, no two of which touch a key in
common. -/
structure Independent (c : CollectionKind) (known : List String) (messages : List Message) :
    Prop where
  distinct : (messages.map (·.hash)).Nodup
  new : ∀ m ∈ messages, m.hash ≠ "" ∧ m.hash ∉ known
  readable : ∀ m ∈ messages, ∃ d, (Kind.collection c).changeSchema.decode m.data = .ok d
  apart : messages.Pairwise fun m m' => ∀ d d',
    (Kind.collection c).changeSchema.decode m.data = .ok d →
    (Kind.collection c).changeSchema.decode m'.data = .ok d' → EntryChange.Apart d d'

variable {known : List String} {messages others : List Message}

theorem Independent.perm (h : Independent c known messages) (hperm : others.Perm messages) :
    Independent c known others where
  distinct := (hperm.map _).nodup_iff.2 h.distinct
  new m hm := h.new m (hperm.mem_iff.1 hm)
  readable m hm := h.readable m (hperm.mem_iff.1 hm)
  apart := by
    refine (hperm.pairwise_iff ?_).2 h.apart
    intro m m' hapart d d' hd hd'
    exact (hapart d' d hd' hd).symm

end Message

namespace Config

variable {config : Config (.collection c)} {messages : List Message}

/-- No data is no delta. -/
theorem decode_nil_ne_ok (c : CollectionKind) (d : (Kind.collection c).Change) :
    (Kind.collection c).changeSchema.decode [] ≠ .ok d := nofun

def broughtBy (c : CollectionKind) (messages : List Message) :
    List (String × Delta c.Key c.Record) :=
  messages.filterMap (Message.carried (Kind.collection c).changeSchema)

/-- The order of independent messages does not matter for what they leave. -/
theorem foldl_apply_perm {known : List String} {others : List Message}
    (h : Message.Independent c known messages) (hperm : others.Perm messages)
    (records : c.Records) :
    ((broughtBy c others).map (·.2)).foldl (Kind.collection c).apply records =
      ((broughtBy c messages).map (·.2)).foldl (Kind.collection c).apply records := by
  have happly : ((broughtBy c messages).map (·.2)).Pairwise EntryChange.Apart := by
    refine List.pairwise_map.2 (List.pairwise_filterMap.2 (h.apart.imp ?_))
    intro m m' hapart change hchange change' hchange'
    exact hapart _ _ (Message.decode_of_carried hchange) (Message.decode_of_carried hchange')
  have hcomm := happly.imp fun {d e} => EntryChange.apply_comm (d := d) (e := e)
  have hflip := happly.imp fun {d e} hapart => EntryChange.apply_comm hapart.symm
  have hbrought : ((broughtBy c others).map (·.2)).Perm ((broughtBy c messages).map (·.2)) :=
    (hperm.filterMap _).map _
  refine (hbrought.symm.foldl_eq' ?_ records).symm
  intro d hd e he z
  exact hcomm.forall_of_forall_of_flip (fun _ _ _ => rfl) hflip hd he z

theorem hashes_broughtBy {known : List String} (h : Message.Independent c known messages) :
    (broughtBy c messages).map (·.1) = messages.map (·.hash) :=
  (Message.readBatch_of_new (decode_nil_ne_ok c) h.distinct h.new h.readable).2

/-- Independent messages are all merged. -/
theorem merge_of_independent {config : Config (.collection c)}
    (h : Message.Independent c config.ledger.hashes messages) :
    config.merge messages =
      (.ok (messages.map (·.hash)), config.absorb (broughtBy c messages)) := by
  have hread := (Message.readBatch_of_new (decode_nil_ne_ok c) h.distinct h.new h.readable).1
  rw [merge_of_ok hread, ← hashes_broughtBy h]
  rfl

/-- However independent messages are ordered and split into batches, all of them are accepted, and
the records, the dumps and whether a dump is due come out the same. The ledger is the old one with
the hashes behind it, in the order in which they were merged. -/
theorem independent_deltas_commute (config : Config (.collection c)) {messages : List Message}
    (h : Message.Independent c config.ledger.hashes messages) :
    let whole := (config.merge messages).2
    ∀ batches : List (List Message), batches.flatten.Perm messages →
      ∃ merged, config.mergeInTurn batches = (.ok (batches.flatten.map (·.hash)), merged) ∧
        merged.records = whole.records ∧
        (Handle.config _ merged).dump = (Handle.config _ whole).dump ∧
        (Handle.config _ merged).dumpPretty = (Handle.config _ whole).dumpPretty ∧
        (Handle.config _ merged).needsDump = (Handle.config _ whole).needsDump ∧
        merged.ledger.hashes = config.ledger.hashes ++ batches.flatten.map (·.hash) ∧
        merged.ledger.hashes.Perm whole.ledger.hashes := by
  intro whole batches hperm
  have hbatches := h.perm hperm
  have hwhole : whole = config.absorb (broughtBy c messages) := by
    simp only [whole, merge_of_independent h]
  have hcontent : (config.absorb (broughtBy c batches.flatten)).content = whole.content := by
    rw [hwhole]
    exact foldl_apply_perm h hperm config.content
  have hdocument : (config.absorb (broughtBy c batches.flatten)).document = whole.document :=
    congrArg (Kind.collection c).document hcontent
  have hhashes : (batches.flatten.map (·.hash)).Perm (messages.map (·.hash)) := hperm.map _
  refine ⟨_, (mergeInTurn_iff ..).2 (merge_of_independent hbatches),
    congrArg KeyMap.values hcontent, congrArg Json.compact hdocument,
    congrArg Json.pretty hdocument, ?_, ?_, ?_⟩
  · simp only [hwhole, Handle.needsDump, absorb, Ledger.record, hashes_broughtBy h,
      hashes_broughtBy hbatches, hhashes.isEmpty_eq]
  · simp only [absorb, Ledger.record, hashes_broughtBy hbatches]
  · simp only [hwhole, absorb, Ledger.record, hashes_broughtBy h, hashes_broughtBy hbatches]
    exact hhashes.append_left _

/-- Messages that encode deltas which touch different keys are independent under new hashes. -/
theorem independent_deltaMessages {known : List String}
    {deltas : List (String × Delta c.Key c.Record)} (hdistinct : (deltas.map (·.1)).Nodup)
    (hnew : ∀ d ∈ deltas, d.1 ≠ "" ∧ d.1 ∉ known)
    (hapart : deltas.Pairwise fun d e => EntryChange.Apart d.2 e.2) :
    Message.Independent c known (deltas.map fun d => deltaMessage d.1 d.2) := by
  have hdecode (d : Delta c.Key c.Record) :=
    Schema.decode_encode (Kind.collection c).changeSchema_wellFormed d
  constructor
  · rwa [List.map_map]
  · exact List.forall_mem_map.2 hnew
  · exact List.forall_mem_map.2 fun d _ => ⟨d.2, hdecode d.2⟩
  · refine List.pairwise_map.2 (hapart.imp fun {d e} hde d' e' hd' he' => ?_)
    cases (hdecode d.2).symm.trans hd'
    cases (hdecode e.2).symm.trans he'
    exact hde

theorem groups_deltas_commute :
    let config : Config .groups :=
      Config.run { content := {} } [.edit (.set (.group { id := "g" })), .markDumped]
    let first : Delta UserGroupKey UserGroup :=
      { set := [.community { community := ⟨"HTTP://Host:80/", "Room", .replicate 32 0x2a⟩ }]
        erase := [.group "g"] }
    let second : Delta UserGroupKey UserGroup :=
      { set := [.group { id := "h" }, .group { id := "h", secretKey := [1] }]
        erase := [.community "http://host/other"] }
    let messages := [("a", first), ("b", second)].map fun d =>
      deltaMessage (c := .groups) d.1 d.2
    let batches := [messages.drop 1, [], messages.take 1]
    (Message.Independent .groups config.ledger.hashes messages ∧ batches.flatten.Perm messages) ∧
      ∃ merged, config.mergeInTurn batches = (.ok ["b", "a"], merged) ∧
        merged.records = (config.merge messages).2.records := by
  intro config first second messages batches
  have h : Message.Independent .groups config.ledger.hashes messages :=
    independent_deltaMessages (by decide) (by decide) (by decide)
  have hperm : batches.flatten.Perm messages := List.Perm.swap _ _ []
  obtain ⟨merged, hmerge, hrecords, -⟩ := independent_deltas_commute config h batches hperm
  exact ⟨⟨h, hperm⟩, merged, hmerge, hrecords⟩

end Config
end SyncedConfig
