import SyncedConfig.Json.Reader.Brackets
import SyncedConfig.Proofs.Accepted.Text

/-!
# What stands between brackets that are read

Items that are read one by one make up a row. What is known of a state in which members are
collected is known of the members themselves, if every member that is read keeps it so.
-/
namespace SyncedConfig.Json

open Reader (Blank)

/-- Blanks in front of a closing bracket belong to the row. -/
theorem IsRow.append_blanks {isFirst : Bool} {items : List Bytes} {row blanks : Bytes}
    (h : IsRow isFirst items row) (hb : Blank blanks) : IsRow isFirst items (row ++ blanks) := by
  induction h with
  | nil hrow => exact .nil (hrow.append hb)
  | cons hbefore hbehind _ ih =>
    simp only [List.append_assoc]
    exact .cons hbefore hbehind ih

theorem IsRow.concat {isFirst : Bool} {items : List Bytes} {row before behind item : Bytes}
    (h : IsRow isFirst items row) (hbefore : Blank before) (hbehind : Blank behind) :
    IsRow isFirst (items ++ [item])
      (row ++ (before ++ (separator (isFirst && items.isEmpty) ++ (behind ++ item)))) := by
  induction h with
  | @nil isFirst blanks hblanks =>
    have hlast : IsRow isFirst [item]
        (blanks ++ before ++ (separator isFirst ++ (behind ++ (item ++ [])))) :=
      .cons (hblanks.append hbefore) hbehind (.nil Reader.blank_nil)
    simpa using hlast
  | @cons isFirst before' behind' item' row items hbefore' hbehind' _ ih =>
    have hall : IsRow isFirst (item' :: (items ++ [item])) (before' ++ (separator isFirst ++
        (behind' ++ (item' ++ (row ++ (before ++
          (separator (false && items.isEmpty) ++ (behind ++ item)))))))) :=
      .cons hbefore' hbehind' ih
    simpa using hall

theorem Reader.Blank.eq_nil_of_close {blanks rest left : Bytes} (h : Blank blanks)
    (hclose : blanks ++ rest = Ascii.closeList :: left) : blanks = [] := by
  cases blanks with
  | nil => rfl
  | cons b blanks =>
    have hb : Reader.isBlank b = true := h b (List.mem_cons_self ..)
    rw [(List.cons_eq_cons.1 hclose).1] at hb
    exact absurd hb (by decide)

theorem IsRow.eq_nil_of_close {items : List Bytes} {row rest left : Bytes}
    (h : IsRow false items row) (hclose : row ++ rest = Ascii.closeList :: left) :
    items = [] ∧ row = [] := by
  cases h with
  | nil hblanks => exact ⟨rfl, hblanks.eq_nil_of_close hclose⟩
  | cons hbefore =>
    rw [List.append_assoc] at hclose
    obtain rfl := hbefore.eq_nil_of_close hclose
    exact absurd (List.cons_eq_cons.1 hclose).1 (by decide)

theorem isObject_singleton {name : String} {quoted value first before behind last : Bytes}
    (hname : SpellsText name quoted) (hfirst : Blank first) (hbefore : Blank before)
    (hbehind : Blank behind) (hlast : Blank last) :
    IsObject [(name, value)] (Ascii.openObject :: (first ++ (quoted ++ (before ++
      Ascii.colon :: (behind ++ (value ++ (last ++ [Ascii.closeObject]))))))) := by
  have hmember : IsMember quoted value (quoted ++ (before ++ Ascii.colon :: (behind ++ value))) :=
    ⟨before, behind, hbefore, hbehind, rfl⟩
  have hrow : IsRow true [quoted ++ (before ++ Ascii.colon :: (behind ++ value))]
      (first ++ (separator true ++ ([] ++
        (quoted ++ (before ++ Ascii.colon :: (behind ++ value)) ++ last)))) :=
    .cons hfirst Reader.blank_nil (.nil hlast)
  refine ⟨_, _, .cons ⟨quoted, hname, hmember⟩ .nil, hrow, ?_⟩
  simp [separator]

namespace Reader

variable {α σ : Type} {input rest : Bytes} {a : α}

theorem exists_of_endList {u : Unit} (h : endList input = .ok (u, rest)) :
    ∃ blanks, Blank blanks ∧ input = blanks ++ Ascii.closeList :: rest := by
  obtain ⟨blanks, left, hblanks, rfl, -, h⟩ := exists_of_peek h
  cases left with
  | nil => cases h
  | cons b left =>
    simp only [List.head?_cons] at h
    split at h
    next hb =>
      cases h
      exact ⟨blanks, hblanks, by rw [hb]; rfl⟩
    split at h
    next =>
      obtain ⟨_, _, -, h⟩ := exists_of_bind h
      obtain ⟨_, _, -, -, -, h⟩ := exists_of_peek h
      split at h <;> cases h
    next => cases h

theorem exists_of_endObject {u : Unit} (h : endObject input = .ok (u, rest)) :
    ∃ blanks, Blank blanks ∧ input = blanks ++ Ascii.closeObject :: rest := by
  obtain ⟨blanks, left, hblanks, rfl, -, h⟩ := exists_of_peek h
  cases left with
  | nil => cases h
  | cons b left =>
    simp only [List.head?_cons] at h
    split at h
    next hb =>
      cases h
      exact ⟨blanks, hblanks, by rw [hb]; rfl⟩
    next => split at h <;> cases h

theorem of_settle {leave : Bytes → Bytes} {body : Reader α}
    (h : settle leave body input = .ok (a, rest)) : body input = .ok (a, rest) := by
  rw [settle] at h
  split at h
  next => cases h
  next => exact h

/-- The body of a list stops in front of the closing bracket and blanks. -/
theorem exists_of_inList {body : Reader α} {b : UInt8}
    (h : inList body (b :: input) = .ok (a, rest)) :
    ∃ blanks, Blank blanks ∧ body input = .ok (a, blanks ++ Ascii.closeList :: rest) := by
  obtain ⟨_, _, hadvance, h⟩ := exists_of_bind h
  cases hadvance
  obtain ⟨a, left, hbody, h⟩ := exists_of_bind h
  obtain ⟨_, _, hend, hpure⟩ := exists_of_bind h
  obtain ⟨rfl, rfl⟩ := eq_of_pure hpure
  obtain ⟨blanks, hblanks, rfl⟩ := exists_of_endList hend
  exact ⟨blanks, hblanks, of_settle hbody⟩

theorem exists_of_inObject {body : Reader α} {b : UInt8}
    (h : inObject body (b :: input) = .ok (a, rest)) :
    ∃ blanks, Blank blanks ∧ body input = .ok (a, blanks ++ Ascii.closeObject :: rest) := by
  obtain ⟨_, _, hadvance, h⟩ := exists_of_bind h
  cases hadvance
  obtain ⟨a, left, hbody, h⟩ := exists_of_bind h
  obtain ⟨_, _, hend, hpure⟩ := exists_of_bind h
  obtain ⟨rfl, rfl⟩ := eq_of_pure hpure
  obtain ⟨blanks, hblanks, rfl⟩ := exists_of_endObject hend
  exact ⟨blanks, hblanks, of_settle hbody⟩

theorem exists_of_nextItem {isFirst more : Bool} (h : nextItem isFirst input = .ok (more, rest)) :
    if more then ∃ before behind, Blank before ∧ Blank behind ∧
      input = before ++ (separator isFirst ++ (behind ++ rest))
    else ∃ blanks left, Blank blanks ∧ rest = Ascii.closeList :: left ∧ input = blanks ++ rest := by
  obtain ⟨blanks, left, hblanks, rfl, -, h⟩ := exists_of_peek h
  cases left with
  | nil => cases h
  | cons b left =>
    simp only [List.head?_cons] at h
    split at h
    next hclose =>
      cases h
      exact ⟨blanks, left, hblanks, by rw [hclose], rfl⟩
    split at h
    next hfirst =>
      cases h
      exact ⟨blanks, [], hblanks, blank_nil, by simp [separator, hfirst]⟩
    split at h
    next hfirst hcomma =>
      obtain ⟨_, _, hadvance, h⟩ := exists_of_bind h
      cases hadvance
      obtain ⟨behind, left, hbehind, rfl, -, h⟩ := exists_of_peek h
      cases left with
      | nil => cases h
      | cons b' left =>
        simp only [List.head?_cons] at h
        split at h
        next => cases h
        next =>
          cases h
          exact ⟨blanks, behind, hblanks, hbehind, by simp [separator, hfirst, hcomma]⟩
    next => cases h

section items

variable {item : Reader α} {writes : α → Bytes → Prop}

theorem exists_of_itemsUpTo (hitem : TakesOnly item writes) {as : List α} {n : Nat}
    {isFirst : Bool} (h : itemsUpTo item n isFirst input = .ok (as, rest)) :
    ∃ items row, List.Forall₂ writes as items ∧ IsRow isFirst items row ∧
      input = row ++ rest := by
  induction n generalizing isFirst input as with
  | zero => cases h
  | succ n ih =>
    obtain ⟨more, left, hnext, h⟩ := exists_of_bind h
    cases more with
    | false =>
      obtain ⟨rfl, rfl⟩ := eq_of_pure h
      obtain ⟨blanks, -, hblanks, -, rfl⟩ := exists_of_nextItem hnext
      exact ⟨[], blanks, .nil, .nil hblanks, rfl⟩
    | true =>
      simp only [↓reduceIte] at h
      obtain ⟨a, left', ha, htail⟩ := exists_of_bind h
      obtain ⟨as, left'', has, hpure⟩ := exists_of_bind htail
      obtain ⟨rfl, rfl⟩ := eq_of_pure hpure
      obtain ⟨before, behind, hbefore, hbehind, rfl⟩ := exists_of_nextItem hnext
      obtain ⟨blanks, octets, hblanks, rfl, hwrites⟩ := hitem _ _ _ ha
      obtain ⟨items, row, hitems, hrow, rfl⟩ := ih has
      refine ⟨octets :: items, _, .cons hwrites hitems,
        .cons hbefore (hbehind.append hblanks) hrow, ?_⟩
      simp

theorem exists_list_of_inList {body : Reader α} {written : α → List Bytes → Prop}
    (hbody : ∀ input a rest, body input = .ok (a, rest) →
      ∃ items row, written a items ∧ IsRow true items row ∧ input = row ++ rest)
    (h : inList body (Ascii.openList :: input) = .ok (a, rest)) :
    ∃ octets, Ascii.openList :: input = octets ++ rest ∧
      ∃ items, written a items ∧ IsList items octets := by
  obtain ⟨blanks, hblanks, hread⟩ := exists_of_inList h
  obtain ⟨items, row, hwritten, hrow, rfl⟩ := hbody _ _ _ hread
  refine ⟨_, ?_, items, hwritten, _, hrow.append_blanks hblanks, rfl⟩
  simp

end items

theorem exists_of_nextMember {isFirst more : Bool}
    (h : nextMember isFirst input = .ok (more, rest)) :
    if more then ∃ before behind left, Blank before ∧ Blank behind ∧
      rest = Ascii.quote :: left ∧ input = before ++ (separator isFirst ++ (behind ++ rest))
    else ∃ blanks, Blank blanks ∧ input = blanks ++ rest := by
  obtain ⟨blanks, left, hblanks, rfl, -, h⟩ := exists_of_peek h
  cases left with
  | nil => cases h
  | cons b left =>
    simp only [List.head?_cons] at h
    split at h
    next =>
      cases h
      exact ⟨blanks, hblanks, rfl⟩
    split at h
    next hfirst =>
      split at h
      next hquote =>
        cases h
        exact ⟨blanks, [], left, hblanks, blank_nil, by rw [hquote], by simp [separator, hfirst]⟩
      next => cases h
    split at h
    next hfirst hcomma =>
      obtain ⟨_, _, hadvance, h⟩ := exists_of_bind h
      cases hadvance
      obtain ⟨behind, left, hbehind, rfl, -, h⟩ := exists_of_peek h
      cases left with
      | nil => cases h
      | cons b' left =>
        simp only [List.head?_cons] at h
        split at h
        next hquote =>
          cases h
          exact ⟨blanks, behind, left, hblanks, hbehind, by rw [hquote],
            by simp [separator, hfirst, hcomma]⟩
        next => split at h <;> cases h
    next => cases h

theorem exists_of_colon {u : Unit} (h : colon input = .ok (u, rest)) :
    ∃ blanks, Blank blanks ∧ input = blanks ++ Ascii.colon :: rest := by
  obtain ⟨blanks, left, hblanks, rfl, -, h⟩ := exists_of_peek h
  cases left with
  | nil => cases h
  | cons b left =>
    simp only [List.head?_cons] at h
    split at h
    next hb =>
      cases h
      exact ⟨blanks, hblanks, by rw [hb]; rfl⟩
    next => cases h

/-- Behind a name, a colon and the octets of a value have been taken. -/
def TakenBehindName (input : Bytes) (writes : Bytes → Prop) (rest : Bytes) : Prop :=
  ∃ before behind octets, Blank before ∧ Blank behind ∧
    input = before ++ Ascii.colon :: (behind ++ (octets ++ rest)) ∧ writes octets

theorem TakenBehindName.mono {writes more : Bytes → Prop} (h : TakenBehindName input writes rest)
    (hmore : ∀ octets, writes octets → more octets) : TakenBehindName input more rest := by
  obtain ⟨before, behind, octets, hbefore, hbehind, hinput, hwrites⟩ := h
  exact ⟨before, behind, octets, hbefore, hbehind, hinput, hmore octets hwrites⟩

/-- A value is taken behind a colon, and what is made of it is returned. -/
theorem exists_of_colon_bind {reader : Reader α} {writes : α → Bytes → Prop}
    (hreader : TakesOnly reader writes) {make : α → σ} {state : σ}
    (h : (do colon; return make (← reader)) input = .ok (state, rest)) :
    ∃ a, make a = state ∧ TakenBehindName input (writes a) rest := by
  obtain ⟨_, left, hcolon, hread⟩ := exists_of_bind h
  obtain ⟨a, left', ha, hpure⟩ := exists_of_bind hread
  obtain ⟨rfl, rfl⟩ := eq_of_pure hpure
  obtain ⟨before, hbefore, rfl⟩ := exists_of_colon hcolon
  obtain ⟨behind, octets, hbehind, rfl, hwrites⟩ := hreader _ _ _ ha
  exact ⟨a, rfl, before, behind, octets, hbefore, hbehind, rfl, hwrites⟩

/-- What is known of a state in which some members are collected is known behind one more. -/
def Tracks (member : String → σ → Reader σ) (known : List (String × Bytes) → σ → Prop) : Prop :=
  ∀ seen state, known seen state → ∀ name input next rest,
    member name state input = .ok (next, rest) →
      TakenBehindName input (fun octets => known (seen ++ [(name, octets)]) next) rest

section members

variable {member : String → σ → Reader σ} {known : List (String × Bytes) → σ → Prop}
  {state last : σ}

theorem exists_of_membersUpTo (hmember : Tracks member known) {seen : List (String × Bytes)}
    (hseen : known seen state) {n : Nat} {isFirst : Bool}
    (h : membersUpTo member n isFirst state input = .ok (last, rest)) :
    ∃ members items row, known (seen ++ members) last ∧
      List.Forall₂ (fun m item => ∃ name, SpellsText m.1 name ∧ IsMember name m.2 item)
        members items ∧
      IsRow isFirst items row ∧ input = row ++ rest := by
  induction n generalizing isFirst state seen input with
  | zero => cases h
  | succ n ih =>
    obtain ⟨more, left, hnext, h⟩ := exists_of_bind h
    cases more with
    | false =>
      obtain ⟨rfl, rfl⟩ := eq_of_pure h
      obtain ⟨blanks, hblanks, rfl⟩ := exists_of_nextMember hnext
      exact ⟨[], [], blanks, by rwa [List.append_nil], .nil, .nil hblanks, rfl⟩
    | true =>
      simp only [↓reduceIte] at h
      obtain ⟨name, left', hname, hmore⟩ := exists_of_bind h
      obtain ⟨next, left'', hvalue, htail⟩ := exists_of_bind hmore
      obtain ⟨before, behind, left, hbefore, hbehind, rfl, rfl⟩ := exists_of_nextMember hnext
      obtain ⟨quoted, hquoted, hsplit⟩ := spellsText_of_textToken hname
      obtain ⟨between, gap, octets, hbetween, hgap, rfl, hknown⟩ :=
        hmember seen state hseen name _ _ _ hvalue
      obtain ⟨members, items, row, hlast, hitems, hrow, rfl⟩ := ih hknown htail
      refine ⟨(name, octets) :: members, _ :: items, _, ?_,
        .cons ⟨quoted, hquoted, between, gap, hbetween, hgap, rfl⟩ hitems,
        .cons hbefore hbehind hrow, ?_⟩
      · simpa using hlast
      · rw [hsplit]
        simp

/-- An object of which the members are read, and what is made of them takes nothing more. -/
theorem isObject_of_inObject {body : Reader α} {made : σ → Prop} (hmember : Tracks member known)
    (hstate : known [] state) (h : inObject body (Ascii.openObject :: input) = .ok (a, rest))
    (hbody : ∀ left, body input = .ok (a, left) →
      ∃ last, Reader.members member state input = .ok (last, left) ∧ made last) :
    ∃ members last octets, known members last ∧ made last ∧ IsObject members octets ∧
      Ascii.openObject :: input = octets ++ rest := by
  obtain ⟨blanks, hblanks, hread⟩ := exists_of_inObject h
  obtain ⟨last, hmembers, hmade⟩ := hbody _ hread
  obtain ⟨members, items, row, hlast, hitems, hrow, rfl⟩ :=
    exists_of_membersUpTo hmember hstate hmembers
  refine ⟨members, last, _, hlast, hmade,
    ⟨items, _, hitems, hrow.append_blanks hblanks, rfl⟩, ?_⟩
  simp

end members

end Reader
end SyncedConfig.Json
