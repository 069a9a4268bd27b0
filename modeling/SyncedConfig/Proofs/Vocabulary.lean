import SyncedConfig.Proofs.Reading.Refusal
import SyncedConfig.Schema.Read

/-!
# The vocabulary of a schema

A schema refuses data in words of its own: the names of its records, fields, tags and sorts of
values. Each way to build a schema adds the words that it may use itself to those of its parts.
-/
namespace SyncedConfig

open Json (Reader Cause)
open Json.Reader

mutual

/-- The words in which a schema refuses data. -/
def Schema.vocabulary : {α : Type} → Schema α → List String
  | _, .text => ["a string"]
  | _, .flag => ["a boolean"]
  | _, .word w => [w.name]
  | _, .optional s => s.vocabulary
  | _, .sequence s => "a sequence" :: s.vocabulary
  | _, .block n s => s!"an array of length {n}" :: s.vocabulary
  | _, .dictionary s => "a map" :: s.vocabulary
  | _, .tag tags => "unit" :: tags.table.map (·.1)
  | _, .union cases _ _ _ => "newtype variant" :: (cases.tags ++ cases.vocabulary)
  | _, .record outline fields _ _ _ =>
    [outline.name, s!"struct {outline.name}", outline.counted fields.names.length] ++
      (fields.names ++ fields.vocabulary)

def Fields.vocabulary : {σ τ : Type} → Fields σ τ → List String
  | _, _, .done => []
  | _, _, .field _ s _ rest => s.vocabulary ++ rest.vocabulary

def Cases.vocabulary : {σ : Type} → Cases σ → List String
  | _, .last _ s => s.vocabulary
  | _, .more _ s rest => s.vocabulary ++ rest.vocabulary

end

variable {α σ τ : Type} {words : List String}

namespace Schema

theorem speaks_blockItems {item : Reader α} (h : Speaks words item) {total : Nat}
    (htotal : s!"an array of length {total}" ∈ words) (n : Nat) :
    Speaks words (blockItems item total n) := by
  induction n with
  | zero => exact speaks_pure _
  | succ n ih =>
    refine ih.bind fun start => (speaks_nextItem _).bind fun more => ?_
    split
    · exact h.map _
    · exact speaks_failWhole (by simpa [Cause.words] using htotal)

theorem speaks_knownTag {known : List String} (h : known ⊆ words) :
    Speaks words (knownTag known) := by
  refine speaks_textToken.bind fun tag => ?_
  split
  · exact speaks_pure tag
  · exact speaks_fail h

theorem speaks_tagged {known : List String} {alone payload : String → Reader α}
    (hknown : known ⊆ words) (halone : ∀ tag, Speaks words (alone tag))
    (hpayload : ∀ tag, Speaks words (payload tag)) :
    Speaks words (tagged known alone payload) := by
  refine speaks_valueStart.bind fun b => ?_
  split
  · exact (speaks_knownTag hknown).bind halone
  split
  · refine speaks_advance.bind fun _ => speaks_peek_bind fun b? => ?_
    cases b? with
    | none => exact speaks_failNext (List.nil_subset _)
    | some b =>
      dsimp only
      split
      · exact speaks_failNext (List.nil_subset _)
      split
      · refine (speaks_knownTag hknown).bind fun tag => speaks_colon.bind fun _ =>
          (hpayload tag).bind fun a => speaks_peek_bind fun b? => ?_
        cases b? with
        | none => exact speaks_fail (List.nil_subset _)
        | some b =>
          dsimp only
          split
          · exact speaks_advance.bind fun _ => speaks_pure a
          · exact speaks_fail (List.nil_subset _)
      · exact speaks_failNext (List.nil_subset _)
  · exact speaks_failNext (List.nil_subset _)

theorem Tags.speaks_value {tags : Tags α} (h : tags.table.map (·.1) ⊆ words) (tag : String) :
    Speaks words (Tags.value tags tag) := by
  rw [Tags.value]
  split
  · exact speaks_pure _
  · exact speaks_fail h

theorem speaks_member {outline : Outline} {names : List String} {fill : String → τ → Reader τ}
    (hnames : names ⊆ words) (hfill : ∀ name slots, Speaks words (fill name slots))
    (name : String) (slots : τ) : Speaks words (member outline names fill name slots) := by
  rw [member]
  split
  · exact hfill name slots
  split
  · exact speaks_failWhole hnames
  · exact speaks_colon.bind fun _ => speaks_skipValue.bind fun _ => speaks_pure slots

theorem speaks_assemble {outline : Outline} (h : outline.name ∈ words) (make? : σ → Option α)
    (values : σ) : Speaks words (assemble outline make? values) := by
  rw [assemble]
  split
  · exact speaks_pure _
  · exact speaks_failWhole (by simpa [Cause.words] using h)

theorem speaks_recordWith {outline : Outline} {row byName : Reader σ} {make? : σ → Option α}
    (hname : outline.name ∈ words) (hrecord : s!"struct {outline.name}" ∈ words)
    (hrow : Speaks words row) (hbyName : Speaks words byName) :
    Speaks words (recordWith outline row byName make?) := by
  refine speaks_valueStart.bind fun b => ?_
  split
  · exact (hrow.bind (speaks_assemble hname make?)).inList
  split
  · exact (hbyName.bind (speaks_assemble hname make?)).inObject
  · exact speaks_mistyped hrecord

end Schema

theorem Fields.speaks_collect : {σ τ : Type} → (fields : Fields σ τ) → fields.names ⊆ words →
    (slots : τ) → Speaks words (fields.collect slots)
  | _, _, .done, _, _ => speaks_pure ()
  | _, _, .field name _ absent rest, h, (value?, slots) => by
    obtain ⟨hname, hrest⟩ := List.cons_subset.1 h
    rw [collect]
    split
    · exact (rest.speaks_collect hrest slots).map _
    · exact speaks_failWhole (by simpa [Cause.words] using hname)

mutual

theorem Schema.speaks_read : {α : Type} → (s : Schema α) → s.vocabulary ⊆ words →
    Speaks words s.read
  | _, .text, h => by
    rw [Schema.read]
    exact speaks_text (h (List.mem_singleton_self _))
  | _, .flag, h => by
    rw [Schema.read]
    exact speaks_flag (h (List.mem_singleton_self _))
  | _, .word w, h => by
    rw [Schema.read]
    exact (speaks_integer (h (List.mem_singleton_self _))).map _
  | _, .optional s, h => by
    rw [Schema.read]
    exact speaks_optional (s.speaks_read h)
  | _, .sequence s, h => by
    obtain ⟨hself, hs⟩ := List.cons_subset.1 h
    rw [Schema.read]
    refine speaks_valueStart.bind fun b => ?_
    split
    · exact (speaks_items (s.speaks_read hs)).inList
    · exact speaks_mistyped hself
  | _, .block n s, h => by
    obtain ⟨hself, hs⟩ := List.cons_subset.1 h
    rw [Schema.read]
    refine speaks_valueStart.bind fun b => ?_
    split
    · exact (Schema.speaks_blockItems (s.speaks_read hs) hself n).inList
    · exact speaks_mistyped hself
  | _, .dictionary s, h => by
    obtain ⟨hself, hs⟩ := List.cons_subset.1 h
    rw [Schema.read]
    refine speaks_valueStart.bind fun b => ?_
    split
    · exact (speaks_members (fun name m =>
        speaks_colon.bind fun _ => (s.speaks_read hs).map _) _).inObject
    · exact speaks_mistyped hself
  | _, .tag tags, h => by
    obtain ⟨hunit, htags⟩ := List.cons_subset.1 h
    rw [Schema.read]
    exact Schema.speaks_tagged htags (Schema.Tags.speaks_value htags)
      fun tag => (speaks_unit hunit).bind fun _ => Schema.Tags.speaks_value htags tag
  | _, .union cases _ _ _, h => by
    obtain ⟨hbare, hcases⟩ := List.cons_subset.1 h
    obtain ⟨htags, hpayload⟩ := List.append_subset.1 hcases
    rw [Schema.read]
    refine (Schema.speaks_tagged htags (fun _ => ?_) (cases.speaks_readPayload hpayload)).map _
    exact speaks_failWhole (by simpa [Cause.words] using hbare)
  | _, .record outline fields _ _ _, h => by
    obtain ⟨hself, hfields⟩ := List.append_subset.1 h
    obtain ⟨hnames, hinner⟩ := List.append_subset.1 hfields
    rw [Schema.read]
    refine Schema.speaks_recordWith (hself (by simp)) (hself (by simp))
      (fields.speaks_readRow hinner (hself (by simp)) 0) ?_
    refine (speaks_members (Schema.speaks_member hnames ?_) _).bind (fields.speaks_collect hnames)
    exact fields.speaks_fill hnames hinner

theorem Fields.speaks_readRow : {σ τ : Type} → (fields : Fields σ τ) →
    fields.vocabulary ⊆ words → {outline : Outline} → {total : Nat} →
    outline.counted total ∈ words → (i : Nat) → Speaks words (fields.readRow outline total i)
  | _, _, .done, _, _, _, _, _ => by
    rw [Fields.readRow]
    exact speaks_pure ()
  | _, _, .field _ s absent rest, h, outline, total, hcounted, i => by
    obtain ⟨hs, hrest⟩ := List.append_subset.1 h
    have hbehind := rest.speaks_readRow hrest hcounted (i + 1)
    rw [Fields.readRow.eq_def]
    dsimp only
    refine (speaks_nextItem _).bind fun more => ?_
    split
    · exact (s.speaks_read hs).bind fun a => hbehind.map _
    · split
      · exact hbehind.map _
      · exact speaks_failWhole (by simpa [Cause.words] using hcounted)

theorem Fields.speaks_fill : {σ τ : Type} → (fields : Fields σ τ) → fields.names ⊆ words →
    fields.vocabulary ⊆ words → (wanted : String) → (slots : τ) →
    Speaks words (fields.fill wanted slots)
  | _, _, .done, _, _, _, _ => by
    rw [Fields.fill]
    exact speaks_pure _
  | _, _, .field name s _ rest, hnames, h, wanted, slots => by
    obtain ⟨hname, hothers⟩ := List.cons_subset.1 hnames
    obtain ⟨hs, hrest⟩ := List.append_subset.1 h
    rw [Fields.fill]
    split
    · split
      · exact speaks_failWhole (by simpa [Cause.words] using hname)
      · exact speaks_colon.bind fun _ => (s.speaks_read hs).map _
    · exact (rest.speaks_fill hothers hrest wanted slots.2).map _

theorem Cases.speaks_readPayload : {σ : Type} → (cases : Cases σ) → cases.vocabulary ⊆ words →
    (wanted : String) → Speaks words (cases.readPayload wanted)
  | _, .last _ s, h, _ => by
    rw [Cases.readPayload]
    exact s.speaks_read h
  | _, .more tag s rest, h, wanted => by
    obtain ⟨hs, hrest⟩ := List.append_subset.1 h
    rw [Cases.readPayload]
    split
    · exact (s.speaks_read hs).map _
    · exact (rest.speaks_readPayload hrest wanted).map _

end

/-- The data that a schema cannot decode is refused in its own words. -/
theorem Schema.words_decode {s : Schema α} {data : Bytes} {e : Json.Error}
    (h : s.decode data = .error e) : e.cause.words ⊆ s.vocabulary := by
  have hwhole : Speaks s.vocabulary s.read.whole := by
    refine (s.speaks_read (List.Subset.refl _)).bind fun a => speaks_peek_bind fun b? => ?_
    cases b? with
    | none => exact speaks_pure a
    | some b => exact speaks_failNext (List.nil_subset _)
  rw [Schema.decode, Reader.decode] at h
  split at h
  next => cases h
  next fault hfault =>
    obtain rfl : fault.toError data = e := Except.error.inj h
    have hcause : (fault.toError data).cause = fault.cause := by cases fault <;> rfl
    rw [hcause]
    exact hwhole data fault hfault

end SyncedConfig
