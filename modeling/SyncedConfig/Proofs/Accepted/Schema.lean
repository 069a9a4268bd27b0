import SyncedConfig.Proofs.Accepted.Brackets
import SyncedConfig.Proofs.Accepted.Number
import SyncedConfig.Proofs.Accepted.Skipped
import SyncedConfig.Proofs.WellFormed

/-!
# What a schema reads

A value is read from nothing but the octets that its schema admits for it. These are more than the
ways to write the value: a name may come more than once in a dictionary, where the last one counts,
a tag may be the name of a null, and what nobody asks for is loose.
-/
namespace SyncedConfig

open Json (IsList IsLooseValue IsObject IsRow Reader SpellsText boolOctets isObject_singleton
  nullOctets)
open Json.Reader

/-- The map of entries that are put one after the other. -/
def KeyMap.ofEntries {κ α : Type} [Ord κ] [Std.TransOrd κ] (entries : List (κ × α)) : KeyMap κ α :=
  entries.foldl (fun m e => m.insert e.1 e.2) empty

/-- The octets of the members with a name, in the order in which they come. -/
def named (name : String) (members : List (String × Bytes)) : List Bytes :=
  (members.filter (·.1 = name)).map (·.2)

mutual

/-- The octets are admitted for a value. -/
def Schema.Admits : {α : Type} → Schema α → α → Bytes → Prop
  | _, .text, s, octets => SpellsText s octets
  | _, .flag, b, octets => octets = boolOctets b
  | _, .word w, n, octets => octets = Utf8.encode (Decimal.ofInt (w.toInt n))
  | _, .optional s, a?, octets =>
    match a? with
    | none => octets = nullOctets
    | some a => s.Admits a octets
  | _, .sequence s, as, octets =>
    ∃ items, List.Forall₂ s.Admits as items ∧ IsList items octets
  | _, .block _ s, as, octets =>
    ∃ items, List.Forall₂ s.Admits as.toList items ∧ IsList items octets
  | _, .dictionary s, m, octets =>
    ∃ entries members, KeyMap.ofEntries entries = m ∧
      List.Forall₂ (fun e member => e.1 = member.1 ∧ s.Admits e.2 member.2) entries members ∧
      IsObject members octets
  | _, .tag tags, a, octets =>
    ∃ tag, tags.table.lookup tag = some a ∧
      (SpellsText tag octets ∨ IsObject [(tag, nullOctets)] octets)
  | _, .union cases _ make _, a, octets =>
    ∃ shape tag value, make shape = a ∧ cases.Admits shape tag value ∧
      IsObject [(tag, value)] octets
  | _, .record outline fields _ make? _, a, octets =>
    ∃ values, make? values = some a ∧
      ((∃ items, fields.AdmitsRow values items ∧ IsList items octets) ∨
        ∃ members, fields.AdmitsMembers values members ∧
          (∀ m ∈ members, m.1 ∉ fields.names → outline.strict = false ∧ IsLooseValue m.2) ∧
          IsObject members octets)

/-- The items are admitted for the fields in order, but for some at the end that have their values
anyway. -/
def Fields.AdmitsRow : {σ τ : Type} → Fields σ τ → σ → List Bytes → Prop
  | _, _, .done, _, items => items = []
  | _, _, .field _ _ absent rest, (a, values), [] => absent = some a ∧ rest.AdmitsRow values []
  | _, _, .field _ s _ rest, (a, values), item :: items =>
    s.Admits a item ∧ rest.AdmitsRow values items

/-- Each field has one member, whose octets are admitted for it, or none if it has its value
anyway. -/
def Fields.AdmitsMembers : {σ τ : Type} → Fields σ τ → σ → List (String × Bytes) → Prop
  | _, _, .done, _, _ => True
  | _, _, .field name s absent rest, (a, values), members =>
    ((∃ octets, named name members = [octets] ∧ s.Admits a octets) ∨
      named name members = [] ∧ absent = some a) ∧
    rest.AdmitsMembers values members

/-- The octets are admitted for what stands behind a tag. -/
def Cases.Admits : {σ : Type} → Cases σ → σ → String → Bytes → Prop
  | _, .last tag s, a, wanted, octets => tag = wanted ∧ s.Admits a octets
  | _, .more tag s rest, shape, wanted, octets =>
    match shape with
    | .inl a => tag = wanted ∧ s.Admits a octets
    | .inr shape => rest.Admits shape wanted octets

end

-- What is admitted is known as soon as the way in which the schema is built is.
attribute [simp] Schema.Admits Fields.AdmitsRow Fields.AdmitsMembers Cases.Admits

variable {α σ τ : Type}

theorem named_append (name : String) (members more : List (String × Bytes)) :
    named name (members ++ more) = named name members ++ named name more := by
  rw [named, List.filter_append, List.map_append]
  rfl

theorem named_singleton_self (name : String) (octets : Bytes) :
    named name [(name, octets)] = [octets] := by simp [named]

theorem named_singleton_of_ne {name other : String} (h : other ≠ name) (octets : Bytes) :
    named name [(other, octets)] = [] := by simp [named, h]

namespace Schema

def ReadsOnly (s : Schema α) : Prop := TakesOnly s.read s.Admits

theorem readsOnly_text : ReadsOnly .text := by
  rw [ReadsOnly, read]
  intro input s rest h
  obtain ⟨blanks, octets, hblanks, rfl, hspells⟩ := takesOnly_text input s rest h
  refine ⟨blanks, octets, hblanks, rfl, ?_⟩
  rw [Admits]
  exact hspells

theorem readsOnly_flag : ReadsOnly .flag := by
  rw [ReadsOnly, read]
  intro input b rest h
  obtain ⟨blanks, octets, hblanks, rfl, heq⟩ := takesOnly_flag input b rest h
  refine ⟨blanks, octets, hblanks, rfl, ?_⟩
  rw [Admits]
  exact heq

theorem readsOnly_word (w : Word α) : ReadsOnly (.word w) := by
  rw [ReadsOnly, read]
  refine (takesOnly_integer w.least w.greatest w.name).map w.ofInt fun n octets h => ?_
  rw [Admits, w.toInt_ofInt n h.1 h.2.1]
  exact h.2.2

theorem readsOnly_optional {s : Schema α} (h : ReadsOnly s) : ReadsOnly (.optional s) := by
  rw [ReadsOnly, read]
  intro input a? rest hread
  obtain ⟨blanks, octets, hblanks, rfl, hwrites⟩ := takesOnly_optional h input a? rest hread
  refine ⟨blanks, octets, hblanks, rfl, ?_⟩
  cases a? <;>
  · rw [Admits]
    exact hwrites

theorem readsOnly_sequence {s : Schema α} (h : ReadsOnly s) : ReadsOnly (.sequence s) := by
  rw [ReadsOnly, read]
  refine takesOnly_of_start fun b input as rest _ hread => ?_
  split at hread
  next hb =>
    subst hb
    have hitems (input : Bytes) (as : List α) (rest : Bytes)
        (hread : items s.read input = .ok (as, rest)) :
        ∃ items row, List.Forall₂ s.Admits as items ∧ IsRow true items row ∧ input = row ++ rest :=
      exists_of_itemsUpTo h hread
    obtain ⟨octets, heq, hlist⟩ := exists_list_of_inList hitems hread
    refine ⟨octets, heq, ?_⟩
    rw [Admits]
    exact hlist
  next => exact absurd hread (mistyped_ne_ok _ _ _ _ _)

/-- A block is read from the front, so its last item is taken last. -/
theorem exists_of_blockItems {item : Reader α} {writes : α → Bytes → Prop}
    (h : TakesOnly item writes) {total n : Nat} {as : Vector α n} {input rest : Bytes}
    (hread : blockItems item total n input = .ok (as, rest)) :
    ∃ items row, List.Forall₂ writes as.toList items ∧ IsRow true items row ∧
      input = row ++ rest := by
  induction n generalizing input rest with
  | zero =>
    obtain ⟨rfl, rfl⟩ := eq_of_pure hread
    exact ⟨[], [], .nil, .nil blank_nil, rfl⟩
  | succ n ih =>
    obtain ⟨start, left, hstart, hread⟩ := exists_of_bind hread
    obtain ⟨more, left', hnext, hread⟩ := exists_of_bind hread
    cases more with
    | false => cases hread
    | true =>
      simp only [↓reduceIte] at hread
      obtain ⟨a, left'', ha, hpure⟩ := exists_of_bind hread
      obtain ⟨rfl, rfl⟩ := eq_of_pure hpure
      obtain ⟨items, row, hitems, hrow, rfl⟩ := ih hstart
      obtain ⟨before, behind, hbefore, hbehind, rfl⟩ := exists_of_nextItem hnext
      obtain ⟨blanks, octets, hblanks, rfl, hwrites⟩ := h _ _ _ ha
      have hlength : items.length = n := by simpa using hitems.length_eq.symm
      have hfirst : decide (n = 0) = (true && items.isEmpty) := by
        subst hlength
        cases items <;> simp
      refine ⟨items ++ [octets], _, ?_, hrow.concat hbefore (hbehind.append hblanks), ?_⟩
      · rw [Vector.toList_push]
        exact List.rel_append hitems (.cons hwrites .nil)
      · rw [hfirst]
        simp

theorem readsOnly_block {s : Schema α} (h : ReadsOnly s) (n : Nat) : ReadsOnly (.block n s) := by
  rw [ReadsOnly, read]
  refine takesOnly_of_start fun b input as rest _ hread => ?_
  split at hread
  next hb =>
    subst hb
    have hitems (input : Bytes) (as : Vector α n) (rest : Bytes)
        (hread : blockItems s.read n n input = .ok (as, rest)) :
        ∃ items row, List.Forall₂ s.Admits as.toList items ∧ IsRow true items row ∧
          input = row ++ rest := exists_of_blockItems h hread
    obtain ⟨octets, heq, hlist⟩ := exists_list_of_inList hitems hread
    refine ⟨octets, heq, ?_⟩
    rw [Admits]
    exact hlist
  next => exact absurd hread (mistyped_ne_ok _ _ _ _ _)

theorem tracks_dictionary {s : Schema α} (h : ReadsOnly s) :
    Tracks (fun name (m : KeyMap String α) => do
        colon
        return m.insert name (← s.read))
      fun members m => ∃ entries, KeyMap.ofEntries entries = m ∧
        List.Forall₂ (fun e member => e.1 = member.1 ∧ s.Admits e.2 member.2) entries members := by
  rintro seen m ⟨entries, rfl, hentries⟩ name input next rest hread
  obtain ⟨a, rfl, htaken⟩ := exists_of_colon_bind h hread
  refine htaken.mono fun octets hadmits => ⟨entries ++ [(name, a)], List.foldl_concat .., ?_⟩
  exact List.rel_append hentries (.cons ⟨rfl, hadmits⟩ .nil)

theorem readsOnly_dictionary {s : Schema α} (h : ReadsOnly s) : ReadsOnly (.dictionary s) := by
  rw [ReadsOnly, read]
  refine takesOnly_of_start fun b input m rest _ hread => ?_
  split at hread
  next hb =>
    subst hb
    obtain ⟨members, last, octets, ⟨entries, rfl, hentries⟩, rfl, hobject, heq⟩ :=
      isObject_of_inObject (tracks_dictionary h) ⟨[], rfl, .nil⟩ hread
        fun left hmembers => ⟨m, hmembers, rfl⟩
    refine ⟨octets, heq, ?_⟩
    rw [Admits]
    exact ⟨entries, members, rfl, hentries, hobject⟩
  next => exact absurd hread (mistyped_ne_ok _ _ _ _ _)

theorem exists_of_knownTag {known : List String} {tag : String} {input rest : Bytes}
    (h : knownTag known (Ascii.quote :: input) = .ok (tag, rest)) :
    tag ∈ known ∧ ∃ octets, SpellsText tag octets ∧ Ascii.quote :: input = octets ++ rest := by
  obtain ⟨tag, left, hname, hknown⟩ := exists_of_bind h
  split at hknown
  next hmem =>
    obtain ⟨rfl, rfl⟩ := eq_of_pure hknown
    exact ⟨hmem, spellsText_of_textToken hname⟩
  next => cases hknown

/-- A tag is taken alone or as the only name of an object. -/
theorem takesOnly_tagged {known : List String} {alone : String → Reader α}
    {payload : String → Reader α} {writes : α → Bytes → Prop} (behind : String → α → Bytes → Prop)
    (halone : ∀ tag ∈ known, ∀ octets, SpellsText tag octets → ∀ input a rest,
      alone tag input = .ok (a, rest) → input = rest ∧ writes a octets)
    (hpayload : ∀ tag ∈ known, TakesOnly (payload tag) (behind tag))
    (hobject : ∀ tag a value octets, behind tag a value → IsObject [(tag, value)] octets →
      writes a octets) :
    TakesOnly (tagged known alone payload) writes := by
  refine takesOnly_of_start fun b input a rest _ hread => ?_
  split at hread
  next hquote =>
    subst hquote
    obtain ⟨tag, left, htag, hread⟩ := exists_of_bind hread
    obtain ⟨hmem, octets, hspells, heq⟩ := exists_of_knownTag htag
    obtain ⟨rfl, hwrites⟩ := halone tag hmem octets hspells _ _ _ hread
    exact ⟨octets, heq, hwrites⟩
  split at hread
  next hopen =>
    subst hopen
    obtain ⟨_, _, hadvance, hread⟩ := exists_of_bind hread
    cases hadvance
    obtain ⟨blanks, left, hblanks, rfl, -, hread⟩ := exists_of_peek hread
    cases left with
    | nil => cases hread
    | cons b' left =>
    simp only [List.head?_cons] at hread
    split at hread
    next => cases hread
    split at hread
    next hquote =>
      subst hquote
      obtain ⟨tag, left', htag, hmember⟩ := exists_of_bind hread
      obtain ⟨hmem, name, hspells, hname⟩ := exists_of_knownTag htag
      obtain ⟨_, _, hcolon, hvalue⟩ := exists_of_bind hmember
      obtain ⟨a, _, ha, hend⟩ := exists_of_bind hvalue
      obtain ⟨last, more, hlast, rfl, -, hclosed⟩ := exists_of_peek hend
      obtain ⟨gap, value, hgap, rfl, hbehind⟩ := hpayload tag hmem _ _ _ ha
      obtain ⟨before, hbefore, rfl⟩ := exists_of_colon hcolon
      cases more with
      | nil => cases hclosed
      | cons b'' more =>
      simp only [List.head?_cons] at hclosed
      split at hclosed
      next hclose =>
        subst hclose
        cases hclosed
        refine ⟨_, ?_, hobject tag a value _ hbehind
          (isObject_singleton hspells hblanks hbefore hgap hlast)⟩
        rw [hname]
        simp
      next => cases hclosed
    next => cases hread
  next => cases hread

theorem eq_some_of_value {tags : Tags α} {tag : String} {a : α} {input rest : Bytes}
    (h : Tags.value tags tag input = .ok (a, rest)) :
    tags.table.lookup tag = some a ∧ input = rest := by
  unfold Tags.value at h
  cases hlookup : tags.table.lookup tag with
  | none =>
    rw [hlookup] at h
    cases h
  | some a' =>
    rw [hlookup] at h
    obtain ⟨rfl, rfl⟩ := eq_of_pure h
    exact ⟨rfl, rfl⟩

theorem readsOnly_tag (tags : Tags α) : ReadsOnly (.tag tags) := by
  rw [ReadsOnly, read]
  refine takesOnly_tagged (fun tag a octets =>
    tags.table.lookup tag = some a ∧ octets = nullOctets) ?_ ?_ ?_
  · intro tag _ octets hspells input a rest hvalue
    obtain ⟨hlookup, rfl⟩ := eq_some_of_value hvalue
    refine ⟨rfl, ?_⟩
    rw [Admits]
    exact ⟨tag, hlookup, .inl hspells⟩
  · intro tag _ input a rest hread
    obtain ⟨_, left, hunit, hvalue⟩ := exists_of_bind hread
    obtain ⟨hlookup, rfl⟩ := eq_some_of_value hvalue
    obtain ⟨blanks, octets, hblanks, rfl, hnull⟩ := takesOnly_unit _ _ _ hunit
    exact ⟨blanks, octets, hblanks, rfl, hlookup, hnull⟩
  · rintro tag a value octets ⟨hlookup, rfl⟩ hobject
    rw [Admits]
    exact ⟨tag, hlookup, .inr hobject⟩

end Schema

def Cases.ReadsOnly (cases : Cases σ) : Prop :=
  ∀ tag ∈ cases.tags, TakesOnly (cases.readPayload tag) fun shape => cases.Admits shape tag

theorem Cases.readsOnly_last {s : Schema α} (h : s.ReadsOnly) (tag : String) :
    (Cases.last tag s).ReadsOnly := by
  intro wanted hwanted input a rest hread
  obtain rfl := List.mem_singleton.1 hwanted
  rw [readPayload] at hread
  obtain ⟨blanks, octets, hblanks, rfl, hadmits⟩ := h _ _ _ hread
  have hcase : (Cases.last wanted s).Admits a wanted octets := by
    rw [Admits]
    exact ⟨rfl, hadmits⟩
  exact ⟨blanks, octets, hblanks, rfl, hcase⟩

theorem Cases.readsOnly_more {s : Schema α} {rest : Cases σ} (h : s.ReadsOnly)
    (hrest : rest.ReadsOnly) (tag : String) : (Cases.more tag s rest).ReadsOnly := by
  intro wanted hwanted
  rw [Cases.readPayload]
  split
  next heq =>
    refine TakesOnly.map h Sum.inl fun a octets hadmits => ?_
    rw [Cases.Admits]
    exact ⟨heq, hadmits⟩
  next hne =>
    have hmem : wanted ∈ rest.tags := (List.mem_cons.1 hwanted).resolve_left (Ne.symm hne)
    refine TakesOnly.map (hrest wanted hmem) Sum.inr fun shape octets hadmits => ?_
    rw [Admits]
    exact hadmits

theorem Schema.readsOnly_union {cases : Cases σ} (h : cases.ReadsOnly) {view : α → σ}
    {make : σ → α} (make_view : ∀ a, make (view a) = a) :
    (Schema.union cases view make make_view).ReadsOnly := by
  rw [ReadsOnly, read]
  have htagged : TakesOnly (Schema.tagged cases.tags
      (fun _ => failWhole (.mistyped .bareTag "newtype variant")) cases.readPayload)
      fun shape octets => ∃ tag value, cases.Admits shape tag value ∧
        IsObject [(tag, value)] octets := by
    refine takesOnly_tagged (fun tag shape => cases.Admits shape tag) ?_ h ?_
    · intro wanted _ octets _ input shape rest hread
      cases hread
    · exact fun wanted _ value _ hadmits hobject => ⟨wanted, value, hadmits, hobject⟩
  refine htagged.map make fun shape octets hshape => ?_
  obtain ⟨wanted, value, hadmits, hobject⟩ := hshape
  rw [Admits]
  exact ⟨shape, wanted, value, rfl, hadmits, hobject⟩

end SyncedConfig
