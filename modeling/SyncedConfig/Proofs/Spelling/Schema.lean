import SyncedConfig.Json.Reader.Scalar
import SyncedConfig.Proofs.KeyMap
import SyncedConfig.Proofs.Spelling.Rows
import SyncedConfig.Proofs.Spelling.Skipped
import SyncedConfig.Proofs.WellFormed

/-!
# Values are read however they are written
-/
namespace SyncedConfig

open Json (Reader IsList IsObject IsRow IsValue Opens SpellsText boolOctets nullOctets)
open Json.Reader

/-- Every field of the record is given, or has its value anyway. -/
def Fields.Given : {σ τ : Type} → Fields σ τ → σ → (names : List String) → Prop
  | _, _, .done, _, _ => True
  | _, _, .field name _ absent rest, (a, values), names =>
    (name ∈ names ∨ absent = some a) ∧ rest.Given values names

/-- Members of an object are a record: no field is given twice. -/
structure Fields.Named {σ τ : Type} (fields : Fields σ τ) (outline : Outline)
    (spells : String → Bytes → Prop) (values : σ) (members : List (String × Bytes)) : Prop where
  known : ∀ m ∈ members, m.1 ∈ fields.names → spells m.1 m.2
  unknown : ∀ m ∈ members, m.1 ∉ fields.names → outline.strict = false ∧ IsValue m.2
  once : ∀ name ∈ fields.names, (members.map (·.1)).count name ≤ 1
  given : fields.Given values (members.map (·.1))

mutual

/-- The octets are a way to write a value. -/
def Schema.Spells : {α : Type} → Schema α → α → Bytes → Prop
  | _, .text, s, octets => SpellsText s octets
  | _, .flag, b, octets => octets = boolOctets b
  | _, .word w, n, octets => octets = Utf8.encode (Decimal.ofInt (w.toInt n))
  | _, .optional s, a?, octets =>
    match a? with
    | none => octets = nullOctets
    | some a => s.Spells a octets
  | _, .sequence s, as, octets =>
    ∃ items, List.Forall₂ s.Spells as items ∧ IsList items octets
  | _, .block _ s, as, octets =>
    ∃ items, List.Forall₂ s.Spells as.toList items ∧ IsList items octets
  | _, .dictionary s, m, octets =>
    ∃ entries members, m.entries.Perm entries ∧
      List.Forall₂ (fun e member => e.1 = member.1 ∧ s.Spells e.2 member.2) entries members ∧
      IsObject members octets
  | _, .tag tags, a, octets => SpellsText (tags.name a) octets
  | _, .union cases _ make _, a, octets =>
    ∃ shape tag value, make shape = a ∧ cases.Spells shape tag value ∧
      IsObject [(tag, value)] octets
  | _, .record outline fields _ make? _, a, octets =>
    ∃ values, make? values = some a ∧
      ((∃ items, fields.InOrder values items ∧ IsList items octets) ∨
        ∃ members, fields.Named outline (fields.Spells values) values members ∧
          IsObject members octets)

def Fields.Spells : {σ τ : Type} → Fields σ τ → σ → String → Bytes → Prop
  | _, _, .done, _, _, _ => False
  | _, _, .field name s _ rest, (a, values), wanted, octets =>
    if name = wanted then s.Spells a octets else rest.Spells values wanted octets

/-- The items are ways to write the fields in order, but for some at the end that have their
values anyway. -/
def Fields.InOrder : {σ τ : Type} → Fields σ τ → σ → List Bytes → Prop
  | _, _, .done, _, items => items = []
  | _, _, .field _ _ absent rest, (a, values), [] => absent = some a ∧ rest.InOrder values []
  | _, _, .field _ s _ rest, (a, values), item :: items =>
    s.Spells a item ∧ rest.InOrder values items

def Cases.Spells : {σ : Type} → Cases σ → σ → String → Bytes → Prop
  | _, .last tag s, a, wanted, octets => tag = wanted ∧ s.Spells a octets
  | _, .more tag s rest, shape, wanted, octets =>
    match shape with
    | .inl a => tag = wanted ∧ s.Spells a octets
    | .inr shape => rest.Spells shape wanted octets

end

-- What the ways are is known as soon as the way in which the schema is built is.
attribute [simp] Schema.Spells Fields.Spells Fields.InOrder Cases.Spells

variable {α σ τ : Type}

namespace Schema

/-- What a value is written as is told from a null, unless it may be one. -/
theorem head?_ne_of_spells {s : Schema α} (hnull : s.nullable = false) {a : α} {octets : Bytes}
    (h : s.Spells a octets) : octets.head? ≠ some (Ascii.octet 'n') := by
  cases s with
  | text | tag =>
    rw [Spells] at h
    rw [h.head?]
    decide
  | flag =>
    rw [Spells] at h
    subst h
    cases a <;> decide
  | word w =>
    rw [Spells] at h
    exact h ▸ Json.head?_integer_ne (w.toInt a)
  | optional => cases hnull
  | sequence | block =>
    rw [Spells] at h
    obtain ⟨items, -, h⟩ := h
    rw [h.head?]
    decide
  | dictionary =>
    rw [Spells] at h
    obtain ⟨entries, members, -, -, h⟩ := h
    rw [h.head?]
    decide
  | union =>
    rw [Spells] at h
    obtain ⟨shape, tag, value, -, -, h⟩ := h
    rw [h.head?]
    decide
  | record =>
    rw [Spells] at h
    obtain ⟨values, -, ⟨items, -, h⟩ | ⟨members, -, h⟩⟩ := h <;>
    · rw [h.head?]
      decide

def Accepts (s : Schema α) : Prop := ∀ a octets, s.Spells a octets → ReadsItem s.read a octets

theorem accepts_text : Accepts .text := by
  intro s octets h
  rw [Spells] at h
  refine ⟨Json.opens_of_head? h.head? (by decide), fun blanks rest hb _ => ?_⟩
  have htoken := textToken_spelled h rest
  obtain ⟨t, rfl⟩ := List.head?_eq_some_iff.1 h.head?
  rw [read, List.cons_append, Reader.text, bind_of_ok (valueStart_cons hb (by decide) _)]
  exact htoken

theorem accepts_flag : Accepts .flag := by
  intro b octets h
  rw [Spells] at h
  subst h
  refine ⟨by cases b <;> exact ⟨_, _, rfl, by decide⟩, fun blanks rest hb _ => ?_⟩
  cases b with
  | true =>
    have hoctets : boolOctets true = [0x74, 0x72, 0x75, 0x65] := rfl
    rw [read, hoctets, List.cons_append, Reader.flag,
      bind_of_ok (valueStart_cons hb (by decide) _)]
    rfl
  | false =>
    have hoctets : boolOctets false = [0x66, 0x61, 0x6c, 0x73, 0x65] := rfl
    rw [read, hoctets, List.cons_append, Reader.flag,
      bind_of_ok (valueStart_cons hb (by decide) _)]
    rfl

theorem reads_integer {least greatest n : Int} (hleast : least ≤ n) (hgreatest : n ≤ greatest)
    (hlow : -0x8000000000000000 ≤ n) (hhigh : n ≤ 0xffffffffffffffff) (expected : String) :
    Reads (integer least greatest expected) (Utf8.encode (Decimal.ofInt n)) n := by
  intro blanks rest hb hrest
  obtain ⟨b, t, ht, hfirst⟩ := Json.octets_integer .compact 0 n
  have hoctets : Utf8.encode (Decimal.ofInt n) = b :: t := ht
  have hnumber : number (b :: (t ++ rest)) = .ok (.integer n, rest) := by
    rw [← List.cons_append, ← hoctets]
    exact number_ofInt hlow hhigh hrest
  have hblank : isBlank b = false := by
    rcases hfirst with rfl | hdigit
    · decide
    · exact Json.isBlank_of_isDigit hdigit
  have hstart : (b = Ascii.minus || Ascii.isDigit b) = true := by simpa using hfirst
  rw [hoctets, List.cons_append, integer, bind_of_ok (valueStart_cons hb hblank _)]
  simp only [hstart, ↓reduceIte]
  rw [bind_of_ok hnumber]
  simp only [hleast, hgreatest, and_self, ↓reduceIte, pure_apply]

theorem accepts_word {w : Word α} (hlow : -0x8000000000000000 ≤ w.least)
    (hhigh : w.greatest ≤ 0xffffffffffffffff) : Accepts (.word w) := by
  intro n octets h
  rw [Spells] at h
  subst h
  have hleast := w.le_toInt n
  have hgreatest := w.toInt_le n
  have hinteger := reads_integer hleast hgreatest (Int.le_trans hlow hleast)
    (Int.le_trans hgreatest hhigh) w.name
  have hread := hinteger.map w.ofInt
  rw [w.ofInt_toInt] at hread
  rw [read]
  exact ⟨Json.opens_integer (w.toInt n), hread⟩

theorem reads_optional_none (reader : Reader α) :
    Reads (Reader.optional reader) nullOctets none := by
  intro blanks rest hb _
  have hoctets : nullOctets = [0x6e, 0x75, 0x6c, 0x6c] := rfl
  rw [hoctets, List.cons_append, Reader.optional, bind_of_ok (skipBlanks_cons hb (by decide) _),
    bind_of_ok (peek?_cons _ _)]
  rfl

/-- A value that does not start like a null is not taken for one. -/
theorem reads_optional_of_ne {reader : Reader α} {a : α} {octets : Bytes}
    (h : ReadsItem reader a octets) (hne : octets.head? ≠ some (Ascii.octet 'n')) :
    Reads (Reader.optional reader) octets (some a) := by
  obtain ⟨⟨b, octets, rfl, hblank, -⟩, hreads⟩ := h
  intro blanks rest hb hrest
  have hvalue := hreads.apply hrest
  rw [List.cons_append] at hvalue ⊢
  rw [Reader.optional, bind_of_ok (skipBlanks_cons hb hblank _), bind_of_ok (peek?_cons _ _)]
  rw [List.head?_cons] at hne
  simp only [hne, ↓reduceIte]
  rw [bind_of_ok hvalue]
  rfl

theorem accepts_optional {s : Schema α} (h : Accepts s) (hnull : s.nullable = false) :
    Accepts (.optional s) := by
  intro a? octets hspells
  cases a? with
  | none =>
    rw [Spells] at hspells
    subst hspells
    rw [read]
    exact ⟨⟨_, _, rfl, by decide⟩, reads_optional_none s.read⟩
  | some a =>
    rw [Spells] at hspells
    have hvalue := h a octets hspells
    rw [read]
    exact ⟨hvalue.1, reads_optional_of_ne hvalue (head?_ne_of_spells hnull hspells)⟩

theorem reads_sequence {s : Schema α} {as : List α} {items : List Bytes} {octets : Bytes}
    (hitems : List.Forall₂ (ReadsItem s.read) as items) (hlist : IsList items octets) :
    ReadsItem (sequence s).read as octets := by
  refine ⟨Json.opens_of_head? hlist.head? (by decide), ?_⟩
  rw [read]
  refine reads_list hlist rfl fun row rest hrow => ⟨[], blank_nil, ?_⟩
  exact items_row hrow hitems rest

theorem accepts_sequence {s : Schema α} (h : Accepts s) : Accepts (.sequence s) := by
  intro as octets hspells
  rw [Spells] at hspells
  obtain ⟨items, hitems, hlist⟩ := hspells
  exact reads_sequence (hitems.imp h) hlist

theorem forall₂_concat {R : α → Bytes → Prop} {as : List α} {a : α} {items : List Bytes}
    (h : List.Forall₂ R (as ++ [a]) items) :
    ∃ front last, items = front ++ [last] ∧ List.Forall₂ R as front ∧ R a last := by
  induction as generalizing items with
  | nil =>
    obtain ⟨last, rest, hlast, hrest, rfl⟩ := List.forall₂_cons_left_iff.1 h
    obtain rfl := List.forall₂_nil_left_iff.1 hrest
    exact ⟨[], last, rfl, .nil, hlast⟩
  | cons b as ih =>
    obtain ⟨item, rest, hitem, hrest, rfl⟩ := List.forall₂_cons_left_iff.1 h
    obtain ⟨front, last, rfl, hfront, hlast⟩ := ih hrest
    exact ⟨item :: front, last, rfl, .cons hitem hfront, hlast⟩

/-- A block is read from the front, so its last item is read last. -/
theorem blockItems_row {item : Reader α} {total n : Nat} {as : Vector α n} {items : List Bytes}
    {row rest : Bytes} (h : IsRow true items row)
    (hitems : List.Forall₂ (ReadsItem item) as.toList items) (hrest : n ≠ 0 → Ends rest) :
    ∃ left, Blank left ∧ blockItems item total n (row ++ rest) = .ok (as, left ++ rest) := by
  induction n generalizing items row rest with
  | zero =>
    obtain rfl : as = #v[] := Vector.eq_empty
    obtain rfl := List.forall₂_nil_left_iff.1 hitems
    cases h with
    | nil hblanks => exact ⟨row, hblanks, rfl⟩
  | succ n ih =>
    have hpush : ∃ (start : Vector α n) (a : α), as = start.push a := Vector.exists_push
    obtain ⟨start, a, rfl⟩ := hpush
    rw [Vector.toList_push] at hitems
    obtain ⟨items, last, rfl, hstart, hlast⟩ := forall₂_concat hitems
    obtain ⟨front, behind, blanks, hfront, hbehind, hblanks, rfl⟩ := h.snoc
    have hlength : items.length = n := by simpa using hstart.length_eq.symm
    have hfirst : (true && items.isEmpty) = decide (n = 0) := by
      subst hlength
      cases items <;> simp
    have hends : n ≠ 0 → Ends (Json.separator (decide (n = 0)) ++
        (behind ++ (last ++ (blanks ++ rest)))) := by
      intro hn
      rw [decide_eq_false hn]
      exact ends_cons _ (by simp)
    obtain ⟨left, hleft, hread⟩ := ih hfront hstart hends
    have hnext := nextItem_opens hleft hbehind hlast.1 (decide (n = 0)) (blanks ++ rest)
    have hvalue := hlast.2.apply (Ends.append hblanks (hrest (Nat.succ_ne_zero n)))
    refine ⟨blanks, hblanks, ?_⟩
    rw [hfirst]
    simp only [List.append_assoc]
    rw [blockItems, bind_of_ok hread, bind_of_ok hnext]
    simp only [↓reduceIte]
    rw [bind_of_ok hvalue]
    rfl

theorem accepts_block {s : Schema α} (h : Accepts s) (n : Nat) : Accepts (.block n s) := by
  intro as octets hspells
  rw [Spells] at hspells
  obtain ⟨items, hitems, hlist⟩ := hspells
  refine ⟨Json.opens_of_head? hlist.head? (by decide), ?_⟩
  rw [read]
  refine reads_list hlist rfl fun row rest hrow => ?_
  exact blockItems_row hrow (hitems.imp h) fun _ => ends_cons _ (by simp)

theorem takes_dictionary {s : Schema α} (h : Accepts s) {entries : List (String × α)}
    {members : List (String × Bytes)}
    (hmembers : List.Forall₂ (fun e m => e.1 = m.1 ∧ s.Spells e.2 m.2) entries members)
    (m : KeyMap String α) :
    Takes (fun name m => do colon; return m.insert name (← s.read)) members m
      (entries.foldl (fun m e => m.insert e.1 e.2) m) := by
  induction hmembers generalizing m with
  | nil => exact .nil m
  | @cons e member entries members hhead _ ih =>
    obtain ⟨name, a⟩ := e
    obtain ⟨name, value⟩ := member
    obtain ⟨rfl, hspells⟩ := hhead
    have hread := (h a value hspells).2.map (m.insert name)
    exact .cons (fun behind hb => reads_colon hb hread) (ih _)

theorem accepts_dictionary {s : Schema α} (h : Accepts s) : Accepts (.dictionary s) := by
  intro m octets hspells
  rw [Spells] at hspells
  obtain ⟨entries, members, hperm, hmembers, hobject⟩ := hspells
  refine ⟨Json.opens_of_head? hobject.head? (by decide), ?_⟩
  have htakes := takes_dictionary h hmembers KeyMap.empty
  rw [KeyMap.foldl_insert_of_perm hperm] at htakes
  rw [read]
  exact reads_object hobject htakes rfl fun input rest hread => hread

theorem knownTag_spelled {known : List String} {tag : String} (h : tag ∈ known) {octets : Bytes}
    (hspells : SpellsText tag octets) (rest : Bytes) :
    knownTag known (octets ++ rest) = .ok (tag, rest) := by
  rw [knownTag, bind_of_ok (textToken_spelled hspells rest)]
  simp only [h, ↓reduceIte, pure_apply]

theorem accepts_tag (tags : Tags α) : Accepts (.tag tags) := by
  intro a octets h
  rw [Spells] at h
  refine ⟨Json.opens_of_head? h.head? (by decide), fun blanks rest hb _ => ?_⟩
  have hknown : tags.name a ∈ tags.table.map (·.1) := by
    obtain ⟨before, behind, h, -⟩ := List.lookup_eq_some_iff.1 (tags.lookup_name a)
    simp [h]
  have htag := knownTag_spelled hknown h rest
  obtain ⟨t, rfl⟩ := List.head?_eq_some_iff.1 h.head?
  rw [read, List.cons_append, tagged, bind_of_ok (valueStart_cons hb (by decide) _)]
  simp only [↓reduceIte]
  rw [List.cons_append] at htag
  rw [bind_of_ok htag, Tags.value, tags.lookup_name]
  rfl

/-- An object with a known tag as its only name is handed to what the tag announces, and the
closing bracket is taken behind that. -/
theorem tagged_spelled {known : List String} (alone : String → Reader α)
    (payload : String → Reader α) {tag : String} {value octets : Bytes}
    (hobject : IsObject [(tag, value)] octets) (htag : tag ∈ known) {blanks : Bytes}
    (hb : Blank blanks) (rest : Bytes) :
    ∃ gap more finish, Blank gap ∧ Ends more ∧ (∀ a : α, finish a more = .ok (a, rest)) ∧
      tagged known alone payload (blanks ++ (octets ++ rest)) =
        (payload tag >>= finish) (gap ++ (value ++ more)) := by
  obtain ⟨items, row, hitems, hrow, rfl⟩ := hobject
  obtain ⟨item, items, ⟨name, hname, between, gap, hbetween, hgap, rfl⟩, hnone, rfl⟩ :=
    List.forall₂_cons_left_iff.1 hitems
  obtain rfl := List.forall₂_nil_left_iff.1 hnone
  cases hrow with
  | @cons _ before behind _ close _ hbefore hbehind hclose =>
  cases hclose with
  | nil hclose =>
  obtain ⟨t, ht⟩ := List.head?_eq_some_iff.1 hname.head?
  have hknown := knownTag_spelled htag hname
  have hends : Ends (close ++ Ascii.closeObject :: rest) :=
    Ends.append hclose (ends_cons _ (by simp))
  refine ⟨gap, close ++ Ascii.closeObject :: rest, ?finish, hgap, hends, ?hfinish, ?htagged⟩
  case htagged =>
    rw [ht] at hknown ⊢
    simp only [Json.separator, ↓reduceIte, List.nil_append, List.cons_append, List.append_assoc]
      at hknown ⊢
    rw [tagged, bind_of_ok (valueStart_cons hb (by decide) _)]
    simp only [show Ascii.openObject ≠ Ascii.quote by decide, ↓reduceIte]
    rw [bind_of_ok (advance_cons _ _), ← List.append_assoc,
      bind_of_ok (skipBlanks_cons (hbefore.append hbehind) (by decide) _),
      bind_of_ok (peek?_cons _ _)]
    simp only [show Ascii.quote ≠ Ascii.closeObject by decide, ↓reduceIte]
    rw [bind_of_ok (hknown _), bind_of_ok (colon_cons hbetween _)]
  case hfinish =>
    intro a
    rw [bind_of_ok (skipBlanks_cons hclose (by decide) rest), bind_of_ok (peek?_cons _ _)]
    rfl

theorem reads_tagged_spelled {known : List String} (alone : String → Reader α)
    {payload : String → Reader α} {tag : String} {value octets : Bytes} {a : α}
    (hobject : IsObject [(tag, value)] octets) (htag : tag ∈ known)
    (h : Reads (payload tag) value a) : Reads (tagged known alone payload) octets a := by
  intro blanks rest hb _
  obtain ⟨gap, more, finish, hgap, hmore, hfinish, htagged⟩ :=
    tagged_spelled alone payload hobject htag hb rest
  rw [htagged, bind_of_ok (h gap more hgap hmore), hfinish]

end Schema

def Cases.Accepts (cases : Cases σ) : Prop :=
  ∀ shape tag octets, cases.Spells shape tag octets →
    tag ∈ cases.tags ∧ Reads (cases.readPayload tag) octets shape

theorem Cases.accepts_last {s : Schema α} (h : s.Accepts) (tag : String) :
    (Cases.last tag s).Accepts := by
  intro a wanted octets hspells
  rw [Spells] at hspells
  obtain ⟨rfl, hspells⟩ := hspells
  rw [readPayload]
  exact ⟨List.mem_singleton_self tag, (h a octets hspells).2⟩

/-- The first shape with the tag is taken, so none behind it may have the tag as well. -/
theorem Cases.accepts_more {s : Schema α} {rest : Cases σ} (h : s.Accepts) (hrest : rest.Accepts)
    {tag : String} (htag : tag ∉ rest.tags) : (Cases.more tag s rest).Accepts := by
  intro shape wanted octets hspells
  cases shape with
  | inl a =>
    rw [Spells] at hspells
    obtain ⟨rfl, hspells⟩ := hspells
    rw [readPayload, if_pos rfl]
    exact ⟨List.mem_cons_self .., (h a octets hspells).2.map Sum.inl⟩
  | inr shape =>
    rw [Spells] at hspells
    obtain ⟨hmem, hreads⟩ := hrest shape wanted octets hspells
    have hne : tag ≠ wanted := fun heq => htag (heq ▸ hmem)
    rw [readPayload, if_neg hne]
    exact ⟨List.mem_cons_of_mem _ hmem, hreads.map Sum.inr⟩

theorem Schema.accepts_union {cases : Cases σ} (h : cases.Accepts) {view : α → σ} {make : σ → α}
    (make_view : ∀ a, make (view a) = a) : (Schema.union cases view make make_view).Accepts := by
  intro a octets hspells
  rw [Spells] at hspells
  obtain ⟨shape, tag, value, rfl, hspells, hobject⟩ := hspells
  obtain ⟨htag, hreads⟩ := h shape tag value hspells
  rw [read]
  exact ⟨Json.opens_of_head? hobject.head? (by decide),
    (reads_tagged_spelled _ hobject htag hreads).map make⟩

end SyncedConfig
