import SyncedConfig.Json.Reader.Document
import SyncedConfig.Proofs.Spelling.Printed
import SyncedConfig.Proofs.Spelling.Rows

/-!
# Documents are read back

A document is read back from its octets in every layout, with its members and elements in the
same order, provided that its brackets nest no deeper than the reader goes, that its numbers
are integers of 64 bits and that no object has two members of one name.
-/
namespace SyncedConfig.Json

open Reader

/-- Whether a document can be read back by a reader that goes so deep. -/
def Readable : Nat → Json → Prop
  | _, null | _, bool _ | _, text _ => True
  | _, integer n => -0x8000000000000000 ≤ n ∧ n ≤ 0xffffffffffffffff
  | _, float _ | 0, list _ | 0, object _ => False
  | depth + 1, list items => ∀ item ∈ items, Readable depth item
  | depth + 1, object members =>
    (members.map (·.1)).Nodup ∧ ∀ member ∈ members, Readable depth member.2

variable {layout : Layout} {nesting : Nat}

theorem Readable.ne_float {j : Json} (h : j.Readable nesting) (x : Float) : j ≠ float x := by
  rintro rfl
  cases nesting <;> exact h

theorem put_eq_append {name : String} (value : Json) {members : List (String × Json)}
    (h : name ∉ members.map (·.1)) : put name value members = members ++ [(name, value)] := by
  induction members with
  | nil => rfl
  | cons member members ih =>
    obtain ⟨name', value'⟩ := member
    obtain ⟨hne, hrest⟩ : name ≠ name' ∧ name ∉ members.map (·.1) := by
      simpa using h
    rw [put, if_neg hne.symm, ih hrest, List.cons_append]

namespace Reader

variable {depth : Nat}

section scalars

variable (inner? : Option (Reader Json))

theorem reads_documentWith_null :
    Reads (documentWith inner?) (Json.null.octets layout depth) .null := by
  intro blanks rest hb _
  have hoctets : Json.null.octets layout depth = [0x6e, 0x75, 0x6c, 0x6c] := rfl
  rw [hoctets, List.cons_append, documentWith.eq_def,
    bind_of_ok (valueStart_cons hb (by decide) _)]
  rfl

theorem reads_documentWith_bool (b : Bool) :
    Reads (documentWith inner?) ((Json.bool b).octets layout depth) (.bool b) := by
  intro blanks rest hb _
  cases b with
  | true =>
    have hoctets : (Json.bool true).octets layout depth = [0x74, 0x72, 0x75, 0x65] := rfl
    rw [hoctets, List.cons_append, documentWith.eq_def,
      bind_of_ok (valueStart_cons hb (by decide) _)]
    rfl
  | false =>
    have hoctets : (Json.bool false).octets layout depth = [0x66, 0x61, 0x6c, 0x73, 0x65] := rfl
    rw [hoctets, List.cons_append, documentWith.eq_def,
      bind_of_ok (valueStart_cons hb (by decide) _)]
    rfl

theorem reads_documentWith_text (s : String) :
    Reads (documentWith inner?) ((Json.text s).octets layout depth) (.text s) := by
  intro blanks rest hb _
  have htoken := textToken_spelled (spellsText_quote s) rest
  obtain ⟨t, ht⟩ := List.head?_eq_some_iff.1 (spellsText_quote s).head?
  rw [octets_text, ht, List.cons_append, documentWith.eq_def,
    bind_of_ok (valueStart_cons hb (by decide) _)]
  change (textToken >>= fun s => pure (Json.text s)) (Ascii.quote :: (t ++ rest)) = _
  rw [← List.cons_append, ← ht, bind_of_ok htoken]
  rfl

/-- The first octet of a number starts nothing else. -/
theorem reads_documentWith_integer {n : Int} (hlow : -0x8000000000000000 ≤ n)
    (hhigh : n ≤ 0xffffffffffffffff) :
    Reads (documentWith inner?) ((Json.integer n).octets layout depth) (.integer n) := by
  intro blanks rest hb hrest
  obtain ⟨b, t, ht, hfirst⟩ := octets_integer layout depth n
  have hnumber : number (b :: (t ++ rest)) = .ok (.integer n, rest) := by
    rw [← List.cons_append, ← ht]
    exact number_ofInt hlow hhigh hrest
  have hstart : (b = Ascii.minus || Ascii.isDigit b) = true := by simpa using hfirst
  have hother (c : UInt8) (hc : (c = Ascii.minus || Ascii.isDigit c) = false) : b ≠ c := by
    rintro rfl
    exact absurd hstart (by simp [hc])
  have hblank : isBlank b = false := by
    rcases hfirst with rfl | hdigit
    · decide
    · exact isBlank_of_isDigit hdigit
  rw [ht, List.cons_append, documentWith.eq_def, bind_of_ok (valueStart_cons hb hblank _)]
  simp only [hother (Ascii.octet 'n') (by decide), hother (Ascii.octet 't') (by decide),
    hother (Ascii.octet 'f') (by decide), hother Ascii.quote (by decide), hstart, ↓reduceIte]
  rw [bind_of_ok hnumber]
  rfl

end scalars

section brackets

variable (hl : layout.IsBlank) {inner : Reader Json}
include hl

theorem reads_documentWith_list {items : List Json}
    (h : ∀ item ∈ items, ReadsItem inner item (item.octets layout (depth + 1))) :
    Reads (documentWith (some inner)) ((Json.list items).octets layout depth) (.list items) := by
  intro blanks rest hb _
  obtain ⟨row, hrow, hoctets⟩ := isList_octets hl depth items
  have hread : List.Forall₂ (ReadsItem inner) items (items.map (·.octets layout (depth + 1))) :=
    List.forall₂_map_right_iff.2 (List.forall₂_same.2 h)
  have hitems := items_row hrow hread rest
  rw [hoctets, List.cons_append, documentWith.eq_def,
    bind_of_ok (valueStart_cons hb (by decide) _)]
  simp only [List.append_assoc, List.singleton_append]
  change (inList (Reader.items inner) >>= fun items => pure (Json.list items)) _ = _
  rw [bind_of_ok (inList_of_ok blank_nil hitems)]
  rfl

omit hl in
theorem takes_put (before members : List (String × Json))
    (hnames : ((before ++ members).map (·.1)).Nodup)
    (h : ∀ member ∈ members, Reads inner (member.2.octets layout (depth + 1)) member.2) :
    Takes (fun name ms => do colon; return put name (← inner) ms)
      (members.map fun m => (m.1, m.2.octets layout (depth + 1))) before (before ++ members) := by
  induction members generalizing before with
  | nil => simpa using Takes.nil before
  | cons member members ih =>
    obtain ⟨name, value⟩ := member
    obtain ⟨hvalue, hmembers⟩ := List.forall_mem_cons.1 h
    have hnew : name ∉ before.map (·.1) := by
      intro hmem
      rw [List.map_append, List.nodup_append] at hnames
      exact hnames.2.2 name hmem name (List.mem_cons_self ..) rfl
    have hput := put_eq_append value hnew
    have htail := ih (before ++ [(name, value)]) (by simpa using hnames) hmembers
    rw [List.append_assoc, List.singleton_append, ← hput] at htail
    exact .cons (fun behind hb => reads_colon hb (hvalue.map (put name · before))) htail

theorem reads_documentWith_object {members : List (String × Json)}
    (hnames : (members.map (·.1)).Nodup)
    (h : ∀ member ∈ members, Reads inner (member.2.octets layout (depth + 1)) member.2) :
    Reads (documentWith (some inner)) ((Json.object members).octets layout depth)
      (.object members) := by
  intro blanks rest hb _
  obtain ⟨items, row, hitems, hrow, hoctets⟩ := isObject_octets hl depth members
  have hmembers := members_row hrow hitems (takes_put [] members hnames h) rest
  rw [hoctets, List.cons_append, documentWith.eq_def,
    bind_of_ok (valueStart_cons hb (by decide) _)]
  simp only [List.append_assoc, List.singleton_append]
  change (inObject (Reader.members (fun name ms => do
    colon; return put name (← inner) ms) []) >>= fun ms => pure (Json.object ms)) _ = _
  rw [bind_of_ok (inObject_of_ok blank_nil hmembers)]
  rfl

end brackets

/-- A readable document is read back, wherever it stands. -/
theorem reads_document (hl : layout.IsBlank) : (nesting : Nat) → (j : Json) →
    j.Readable nesting → (depth : Nat) → Reads (document nesting) (j.octets layout depth) j
  | 0, .null, _, _ | _ + 1, .null, _, _ => reads_documentWith_null _
  | 0, .bool b, _, _ | _ + 1, .bool b, _, _ => reads_documentWith_bool _ b
  | 0, .text s, _, _ | _ + 1, .text s, _, _ => reads_documentWith_text _ s
  | 0, .integer _, h, _ | _ + 1, .integer _, h, _ => reads_documentWith_integer _ h.1 h.2
  | 0, .float _, h, _ | _ + 1, .float _, h, _ | 0, .list _, h, _ | 0, .object _, h, _ => h.elim
  | nesting + 1, .list _, h, depth =>
    reads_documentWith_list hl fun item hitem =>
      ⟨opens_octets hl (depth + 1) item (h item hitem).ne_float,
        reads_document hl nesting item (h item hitem) (depth + 1)⟩
  | nesting + 1, .object _, h, depth =>
    reads_documentWith_object hl h.1
      fun member hmember => reads_document hl nesting member.2 (h.2 member hmember) (depth + 1)

end Reader

/-- A document is parsed from its octets, with nothing left over. -/
theorem parse_octets (hl : layout.IsBlank) {j : Json} (h : j.Readable nestingLimit) :
    parse (j.octets layout 0) = .ok j := (reads_document hl nestingLimit j h 0).decode

theorem parse_compact {j : Json} (h : j.Readable nestingLimit) :
    parse (Utf8.ofString j.compact) = .ok j := by
  rw [Utf8.ofString, compact, String.toList_ofList]
  exact parse_octets Layout.compact_isBlank h

theorem parse_pretty {j : Json} (h : j.Readable nestingLimit) :
    parse (Utf8.ofString j.pretty) = .ok j := by
  rw [Utf8.ofString, pretty, String.toList_ofList]
  exact parse_octets Layout.pretty_isBlank h

theorem compact_inj {i j : Json} (hi : i.Readable nestingLimit) (hj : j.Readable nestingLimit) :
    i.compact = j.compact ↔ i = j := by
  refine ⟨fun h => ?_, congrArg compact⟩
  have hparse := parse_compact hi
  rw [h, parse_compact hj] at hparse
  exact (Except.ok.inj hparse).symm

end SyncedConfig.Json
