import SyncedConfig.Host.Handle
import SyncedConfig.Proofs.Collection.Lookup
import SyncedConfig.Proofs.DeltaFormat

/-!
# Transfer by a delta

A collection takes over what another one holds from a single message. Its delta puts all
records of the other collection and erases all keys that only the own records have.
-/
namespace SyncedConfig

variable {c : CollectionKind}

namespace Config

variable {k : Kind} {a b : Config (.collection c)}

/-- What leads from one collection to another: all records of the other one are put, and the
keys that it does not have are erased. -/
def transfer (a b : Config (.collection c)) : Delta c.Key c.Record where
  set := b.records
  erase := (a.records.map c.keyOf).filter fun key => (b.get? key).isNone

theorem apply_transfer (ha : EntryChange.OwnKeys a.get?) (hb : EntryChange.OwnKeys b.get?) :
    (transfer a b).apply c.keyOf a.content = b.content := by
  refine KeyMap.ext_get? fun key => ?_
  rw [Delta.get?_apply, transfer, find?_records hb]
  change _ = b.get? key
  simp only [List.mem_filter, mem_map_keyOf_iff ha]
  cases hget : b.get? key with
  | none => cases hold : KeyMap.get? a.content key <;> simp [hold, get?]
  | some record => simp

theorem merge_encode {config : Config k} {hash : String} (hne : hash ≠ "")
    (hnew : hash ∉ config.ledger.hashes) (change : k.Change) :
    config.merge [⟨hash, k.changeSchema.encode change⟩] =
      (.ok [hash], config.absorb [(hash, change)]) := by
  have hdecode := k.changeSchema.decode_encode k.changeSchema_wellFormed change
  rw [merge_new (Schema.encode_ne_nil k.changeSchema_wellFormed change) hne hnew, hdecode]

def deltaMessage (hash : String) (delta : Delta c.Key c.Record) : Message :=
  ⟨hash, (Kind.collection c).changeSchema.encode delta⟩

/-- A delta is accepted under a hash, and then a collection holds the records of another one in
the same order, and has its dumps. -/
structure TakesOver (a b : Config (.collection c)) (hash : String)
    (delta : Delta c.Key c.Record) : Prop where
  accepted : (a.merge [deltaMessage hash delta]).1 = .ok [hash]
  content_eq : (a.merge [deltaMessage hash delta]).2.content = b.content
  records_eq : (a.merge [deltaMessage hash delta]).2.records = b.records
  dump_eq :
    (Handle.config _ (a.merge [deltaMessage hash delta]).2).dump = (Handle.config _ b).dump
  dumpPretty_eq :
    (Handle.config _ (a.merge [deltaMessage hash delta]).2).dumpPretty =
      (Handle.config _ b).dumpPretty

theorem takesOver_transfer (ha : EntryChange.OwnKeys a.get?) (hb : EntryChange.OwnKeys b.get?)
    {hash : String} (hne : hash ≠ "") (hnew : hash ∉ a.ledger.hashes) :
    a.TakesOver b hash (transfer a b) := by
  have hmerge : a.merge [deltaMessage hash (transfer a b)] =
      (.ok [hash], a.absorb [(hash, transfer a b)]) := merge_encode hne hnew (transfer a b)
  have hcontent : (a.merge [deltaMessage hash (transfer a b)]).2.content = b.content := by
    rw [hmerge]
    exact apply_transfer ha hb
  have hdocument : (a.merge [deltaMessage hash (transfer a b)]).2.document = b.document :=
    congrArg (Kind.collection c).document hcontent
  exact {
    accepted := congrArg Prod.fst hmerge
    content_eq := hcontent
    records_eq := congrArg KeyMap.values hcontent
    dump_eq := congrArg Json.compact hdocument
    dumpPretty_eq := congrArg Json.pretty hdocument }

/-- Of any two collections of a kind, one takes over what the other holds from the delta between
them, under any hash that is new to it. In particular a fresh collection does so from a delta that
puts all records of the other one. -/
theorem merge_transfer (ha : a.Reachable) (hb : b.Reachable) {hash : String} (hne : hash ≠ "") :
    (hash ∉ a.ledger.hashes → a.TakesOver b hash (transfer a b)) ∧
    ∀ id start, create (.collection c) id = .ok start →
      start.TakesOver b hash { set := b.records } := by
  have hb := ownKeys_of_reachable hb
  refine ⟨takesOver_transfer (ownKeys_of_reachable ha) hb hne, fun id start hcreate => ?_⟩
  have hstart : EntryChange.OwnKeys start.get? := ownKeys_run hcreate []
  -- a fresh collection has no keys to erase, and no hash is known to it
  cases hcreate
  have htransfer : transfer { content := {} } b = { set := b.records } := rfl
  rw [← htransfer]
  exact takesOver_transfer hstart hb hne List.not_mem_nil

theorem conversations_transferred :
    let start : Config .conversations := { content := {} }
    let a := start.run [.merge [⟨"first", [0x7b, 0x7d]⟩],
      .edit (.set (.group { peer := "g", unread := true }))]
    let b := start.run [.edit (.set (.community
        ⟨⟨"HTTP://Host:80/", "Room", .replicate 32 0x2a⟩, 7, true⟩)),
      .edit (.set (.oneToOne { peer := "\x00" }))]
    (a.Reachable ∧ b.Reachable ∧ "second" ∉ a.ledger.hashes) ∧
      (transfer a b).erase = [.group "g"] ∧ a.TakesOver b "second" (transfer a b) := by
  intro start a b
  have hstart : create .conversations "" = .ok start := rfl
  have ha : a.Reachable := reachable_run hstart _
  have hb : b.Reachable := reachable_run hstart _
  have hhashes : a.ledger.hashes = ["first"] := rfl
  have hnew : "second" ∉ a.ledger.hashes := by simp [hhashes]
  have hne : "second" ≠ "" := by decide
  exact ⟨⟨ha, hb, hnew⟩, by decide, (merge_transfer ha hb hne).1 hnew⟩

end Config
end SyncedConfig
