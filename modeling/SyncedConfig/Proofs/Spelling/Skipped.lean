import SyncedConfig.Json.Reader.Ignored
import SyncedConfig.Proofs.Reading.Number
import SyncedConfig.Proofs.Spelling.Text

/-!
# Any value is passed over

A value that nobody asks for is passed over whatever it is. It may be loose: its texts need not be
UTF-8, and halves of pairs may stand alone. Inside brackets the reader stands behind a complete
value as it does behind any other, so that what is shown of a value holds for the values inside it
with more brackets on the stack.
-/
namespace SyncedConfig.Json

open Reader (Bracket IsPlain)

/-- A plain octet or an escape, whatever it stands for. -/
inductive IsLoosePiece : Bytes → Prop
  | plain {b : UInt8} (h : IsPlain b) : IsLoosePiece [b]
  | short {letter c : Char} (h : (letter, c) ∈ shortEscapes) :
      IsLoosePiece [Ascii.backslash, Ascii.octet letter]
  | code {n : Nat} {octets : Bytes} (h : IsCode n octets) : IsLoosePiece octets

def IsLooseText (octets : Bytes) : Prop :=
  ∃ pieces : List Bytes, (∀ piece ∈ pieces, IsLoosePiece piece) ∧
    octets = Ascii.quote :: (pieces.flatten ++ [Ascii.quote])

namespace Reader.Bracket

def opening : Bracket → UInt8
  | list => Ascii.openList
  | object => Ascii.openObject

def close : Bracket → UInt8
  | list => Ascii.closeList
  | object => Ascii.closeObject

end Reader.Bracket

mutual

/-- The octets are a value, whatever octets its texts have. -/
inductive IsLooseValue : Bytes → Prop
  | null : IsLooseValue nullOctets
  | bool (b : Bool) : IsLooseValue (boolOctets b)
  | number {octets : Bytes} (h : IsNumber octets) : IsLooseValue octets
  | text {octets : Bytes} (h : IsLooseText octets) : IsLooseValue octets
  | row {bracket : Bracket} {items : List Bytes} {row : Bytes}
      (hitems : ∀ item ∈ items, IsLooseItem bracket item) (hrow : IsRow true items row) :
      IsLooseValue (bracket.opening :: (row ++ [bracket.close]))

/-- The octets are an element of a list or a member of an object. -/
inductive IsLooseItem : Bracket → Bytes → Prop
  | element {octets : Bytes} (h : IsLooseValue octets) : IsLooseItem .list octets
  | member {name value octets : Bytes} (hname : IsLooseText name) (hvalue : IsLooseValue value)
      (h : IsMember name value octets) : IsLooseItem .object octets

end

variable {octets : Bytes}

theorem IsLooseText.head? (h : IsLooseText octets) : octets.head? = some Ascii.quote := by
  obtain ⟨pieces, -, rfl⟩ := h
  rfl

theorem IsLooseValue.opens (h : IsLooseValue octets) : Opens octets := by
  cases h with
  | null => exact ⟨_, _, rfl, by decide⟩
  | bool b => cases b <;> exact ⟨_, _, rfl, by decide⟩
  | number h => exact opens_number h
  | text h => exact opens_of_head? h.head? (by decide)
  | @row bracket => cases bracket <;> exact ⟨_, _, rfl, by decide⟩

theorem IsLooseItem.opens {bracket : Bracket} (h : IsLooseItem bracket octets) : Opens octets := by
  cases h with
  | element h => exact h.opens
  | member hname _ h =>
    obtain ⟨before, behind, -, -, rfl⟩ := h
    exact (opens_of_head? hname.head? (by decide)).append _

theorem isLooseText_of_forall {pieces : List Bytes} (h : ∀ piece ∈ pieces,
      ∃ parts : List Bytes, (∀ part ∈ parts, IsLoosePiece part) ∧ piece = parts.flatten) :
    IsLooseText (Ascii.quote :: (pieces.flatten ++ [Ascii.quote])) := by
  suffices hparts : ∃ parts : List Bytes, (∀ part ∈ parts, IsLoosePiece part) ∧
      pieces.flatten = parts.flatten by
    obtain ⟨parts, hloose, hflatten⟩ := hparts
    exact ⟨parts, hloose, by rw [hflatten]⟩
  induction pieces with
  | nil => exact ⟨[], List.forall_mem_nil _, rfl⟩
  | cons piece pieces ih =>
    obtain ⟨⟨first, hfirst, rfl⟩, htail⟩ := List.forall_mem_cons.1 h
    obtain ⟨parts, hparts, hflatten⟩ := ih htail
    exact ⟨first ++ parts, List.forall_mem_append.2 ⟨hfirst, hparts⟩, by simp [hflatten]⟩

theorem exists_parts_of_plain {c : Char} (hcontrol : 0x20 ≤ c.toNat) (hquote : c ≠ '"')
    (hbackslash : c ≠ '\\') :
    ∃ parts : List Bytes, (∀ part ∈ parts, IsLoosePiece part) ∧
      String.utf8EncodeChar c = parts.flatten := by
  refine ⟨(String.utf8EncodeChar c).map fun b => [b], fun part hpart => ?_,
    (List.flatMap_singleton' _).symm⟩
  obtain ⟨b, hb, rfl⟩ := List.mem_map.1 hpart
  exact .plain (Reader.isPlain_of_mem hcontrol hquote hbackslash hb)

theorem IsLoosePiece.exists_parts (h : IsLoosePiece octets) :
    ∃ parts : List Bytes, (∀ part ∈ parts, IsLoosePiece part) ∧ octets = parts.flatten :=
  ⟨[octets], List.forall_mem_singleton.2 h, by simp⟩

theorem IsQuoted.isLooseText (h : IsQuoted octets) : IsLooseText octets := by
  obtain ⟨pieces, hpieces, rfl⟩ := h
  refine isLooseText_of_forall fun piece hpiece => ?_
  cases hpieces piece hpiece with
  | plain hcontrol hquote hbackslash => exact exists_parts_of_plain hcontrol hquote hbackslash
  | short h => exact (IsLoosePiece.short h).exists_parts
  | code h => exact (IsLoosePiece.code h).exists_parts

theorem SpellsText.isLooseText {s : String} (h : SpellsText s octets) : IsLooseText octets := by
  obtain ⟨pieces, hpieces, rfl⟩ := h
  refine isLooseText_of_forall fun piece hpiece => ?_
  obtain ⟨c, -, hc⟩ := exists_of_mem_items hpieces hpiece
  cases hc with
  | plain hcontrol hquote hbackslash => exact exists_parts_of_plain hcontrol hquote hbackslash
  | short h => exact (IsLoosePiece.short h).exists_parts
  | code h => exact (IsLoosePiece.code h).exists_parts
  | pair _ hhigh hlow =>
    exact ⟨[_, _], List.forall_mem_cons.2 ⟨.code hhigh, List.forall_mem_singleton.2 (.code hlow)⟩,
      by simp⟩

theorem IsList.isLooseValue {items : List Bytes} (h : IsList items octets)
    (hitems : ∀ item ∈ items, IsLooseValue item) : IsLooseValue octets := by
  obtain ⟨row, hrow, rfl⟩ := h
  have hall : ∀ item ∈ items, IsLooseItem .list item := fun item hitem =>
    .element (hitems item hitem)
  exact .row hall hrow

theorem IsObject.isLooseValue {members : List (String × Bytes)} (h : IsObject members octets)
    (hmembers : ∀ m ∈ members, IsLooseValue m.2) : IsLooseValue octets := by
  obtain ⟨items, row, hitems, hrow, rfl⟩ := h
  have hall : ∀ item ∈ items, IsLooseItem .object item := by
    intro item hitem
    obtain ⟨m, hm, name, hname, hmember⟩ := exists_of_mem_items hitems hitem
    exact .member hname.isLooseText (hmembers m hm) hmember
  exact .row hall hrow

theorem IsValue.isLooseValue (h : IsValue octets) : IsLooseValue octets := by
  induction h with
  | null => exact .null
  | bool b => exact .bool b
  | number h => exact .number h
  | text h => exact .text h.isLooseText
  | list _ h ih => exact h.isLooseValue ih
  | @object members items row hnames _ hitems hrow ih =>
    have hall : ∀ item ∈ items, IsLooseItem .object item := by
      intro item hitem
      obtain ⟨m, hm, hmember⟩ := exists_of_mem_items hitems hitem
      exact .member (hnames m hm).isLooseText (ih m hm) hmember
    exact .row hall hrow

namespace Reader

variable {spot spot' : Spot} {stack stack' : List Bracket} {b : UInt8} {octets rest : Bytes}

theorem skipFrom_of_next (h : step spot stack b = .next spot' stack') (rest : Bytes) :
    skipFrom spot stack (b :: rest) = skipFrom spot' stack' rest := by
  rw [skipFrom, h]

/-- Behind a value that is in no brackets the reader stops. -/
theorem skipFrom_ended (rest : Bytes) : skipFrom .ended [] rest = .ok ((), rest) := by
  cases rest <;> rfl

theorem skipFrom_of_complete (h : step spot stack b = complete stack') (rest : Bytes) :
    skipFrom spot stack (b :: rest) = skipFrom .ended stack' rest := by
  cases stack' with
  | nil =>
    rw [skipFrom, h, skipFrom_ended]
    rfl
  | cons bracket stack' => exact skipFrom_of_next h rest

/-- Blanks are passed over wherever they do not move the reader. -/
theorem skipFrom_blanks {blanks : Bytes} (hb : Blank blanks)
    (h : ∀ b, isBlank b = true → step spot stack b = .next spot stack) (rest : Bytes) :
    skipFrom spot stack (blanks ++ rest) = skipFrom spot stack rest := by
  induction blanks with
  | nil => rfl
  | cons b blanks ih =>
    obtain ⟨hhead, htail⟩ := List.forall_mem_cons.1 hb
    rw [List.cons_append, skipFrom_of_next (h b hhead), ih htail]

/-- The octets are a value to the reader, in brackets or not. -/
def Skips (octets : Bytes) : Prop :=
  ∀ stack rest, Ends rest → skipFrom .value stack (octets ++ rest) = skipFrom .ended stack rest

theorem skips_null : Skips nullOctets := by
  intro stack rest _
  change skipFrom (.word [0x6c]) stack (0x6c :: rest) = _
  exact skipFrom_of_complete rfl rest

theorem skips_bool (b : Bool) : Skips (boolOctets b) := by
  intro stack rest _
  cases b with
  | true =>
    change skipFrom (.word [0x65]) stack (0x65 :: rest) = _
    exact skipFrom_of_complete rfl rest
  | false =>
    change skipFrom (.word [0x65]) stack (0x65 :: rest) = _
    exact skipFrom_of_complete rfl rest

theorem skipFrom_text {isName : Bool} {octets : Bytes} (h : ∀ b ∈ octets, IsPlain b)
    (rest : Bytes) :
    skipFrom (.text isName) stack (octets ++ rest) = skipFrom (.text isName) stack rest := by
  induction octets with
  | nil => rfl
  | cons b octets ih =>
    obtain ⟨⟨hquote, hbackslash, hcontrol⟩, htail⟩ := List.forall_mem_cons.1 h
    have hstep : step (.text isName) stack b = .next (.text isName) stack := by
      simp only [step, stepText, hquote, hbackslash, hcontrol, Bool.false_eq_true, ↓reduceIte]
    rw [List.cons_append, skipFrom_of_next hstep, ih htail]

theorem skipFrom_piece {isName : Bool} {piece : Bytes} (h : IsLoosePiece piece) (rest : Bytes) :
    skipFrom (.text isName) stack (piece ++ rest) = skipFrom (.text isName) stack rest := by
  cases h with
  | plain h => exact skipFrom_text (List.forall_mem_singleton.2 h) rest
  | @short letter c h =>
    obtain ⟨hcode, hletter, -⟩ := unescape?_short h
    have hescape : step (.escape isName) stack (Ascii.octet letter) =
        .next (.text isName) stack := by
      simp only [step, hcode, hletter, Option.isSome_some, ↓reduceIte]
    rw [List.cons_append, skipFrom_of_next rfl, List.singleton_append, skipFrom_of_next hescape]
  | code h =>
    obtain ⟨b₁, b₂, b₃, b₄, rfl, hnumber⟩ := hexNumber?_code h
    have hlast : step (.digits isName [b₁, b₂, b₃]) stack b₄ = .next (.text isName) stack := by
      simp [step, hnumber]
    change skipFrom (.digits isName [b₁, b₂, b₃]) stack (b₄ :: rest) = _
    exact skipFrom_of_next hlast rest

theorem skipFrom_pieces {isName : Bool} {pieces : List Bytes}
    (h : ∀ piece ∈ pieces, IsLoosePiece piece) (rest : Bytes) :
    skipFrom (.text isName) stack (pieces.flatten ++ rest) =
      skipFrom (.text isName) stack rest := by
  induction pieces with
  | nil => rfl
  | cons piece pieces ih =>
    obtain ⟨hhead, htail⟩ := List.forall_mem_cons.1 h
    rw [List.flatten_cons, List.append_assoc, skipFrom_piece hhead, ih htail]

theorem skips_text (h : IsLooseText octets) : Skips octets := by
  intro stack rest _
  obtain ⟨pieces, hpieces, rfl⟩ := h
  rw [List.cons_append, List.append_assoc, skipFrom_of_next rfl, skipFrom_pieces hpieces,
    List.singleton_append]
  exact skipFrom_of_complete rfl rest

theorem skipFrom_name (h : IsLooseText octets) (rest : Bytes) :
    skipFrom .name stack (octets ++ rest) = skipFrom .colon stack rest := by
  obtain ⟨pieces, hpieces, rfl⟩ := h
  rw [List.cons_append, List.append_assoc, skipFrom_of_next rfl, skipFrom_pieces hpieces,
    List.singleton_append]
  exact skipFrom_of_next rfl rest

/-- A number may end where a value may, if it is complete. -/
theorem skipFrom_number {spot : NumberSpot} (h : spot.isComplete = true) (hrest : Ends rest) :
    skipFrom (.number spot) stack rest = skipFrom .ended stack rest := by
  cases rest with
  | nil => simp [skipFrom, endCause?, h]
  | cons b rest =>
    obtain ⟨hdigit, hpoint, he, hE⟩ := hrest.head
    have hnone : spot.step? b = none := by
      cases spot <;> simp_all [NumberSpot.step?, NumberSpot.isComplete]
    have hstep : step (.number spot) stack b = stepEnded stack b := by
      cases spot <;> simp_all [step, stepNumber, NumberSpot.isComplete]
    rw [skipFrom, hstep, skipFrom, step]

theorem skipFrom_step {spot spot' : NumberSpot} (h : spot.step? b = some spot') (rest : Bytes) :
    skipFrom (.number spot) stack (b :: rest) = skipFrom (.number spot') stack rest :=
  skipFrom_of_next (by simp only [step, stepNumber, h]) rest

theorem skipFrom_digits {spot : NumberSpot}
    (hspot : ∀ b, Ascii.isDigit b = true → spot.step? b = some spot) {digits : Bytes}
    (h : ∀ b ∈ digits, Ascii.isDigit b = true) (rest : Bytes) :
    skipFrom (.number spot) stack (digits ++ rest) = skipFrom (.number spot) stack rest := by
  induction digits with
  | nil => rfl
  | cons b digits ih =>
    obtain ⟨hhead, htail⟩ := List.forall_mem_cons.1 h
    rw [List.cons_append, skipFrom_step (hspot b hhead), ih htail]

/-- The first digit of a part leads to where the others keep the reader. -/
theorem skipFrom_part {spot spot' : NumberSpot}
    (hspot : ∀ b, Ascii.isDigit b = true → spot.step? b = some spot')
    (hspot' : ∀ b, Ascii.isDigit b = true → spot'.step? b = some spot') {digits : Bytes}
    (h : IsDigits digits) (rest : Bytes) :
    skipFrom (.number spot) stack (digits ++ rest) = skipFrom (.number spot') stack rest := by
  obtain ⟨hne, hdigits⟩ := h
  obtain ⟨b, digits, rfl⟩ := List.exists_cons_of_ne_nil hne
  obtain ⟨hhead, htail⟩ := List.forall_mem_cons.1 hdigits
  rw [List.cons_append, skipFrom_step (hspot b hhead), skipFrom_digits hspot' htail]

theorem step?_exponent (h : Ascii.isDigit b = true) :
    NumberSpot.step? .exponent b = some .exponentDigits := by
  have hplus : b ≠ Ascii.plus := by
    rintro rfl
    exact absurd h (by decide)
  have hminus : b ≠ Ascii.minus := by
    rintro rfl
    exact absurd h (by decide)
  simp [NumberSpot.step?, h, hplus, hminus]

theorem skipFrom_exponent {spot : NumberSpot} (hspot : spot.isComplete = true)
    (hletter : ∀ b, b = Ascii.octet 'e' ∨ b = Ascii.octet 'E' → spot.step? b = some .exponent)
    (h : IsExponent octets) (hrest : Ends rest) :
    skipFrom (.number spot) stack (octets ++ rest) = skipFrom .ended stack rest := by
  rcases h with rfl | ⟨letter, sign, digits, hl, hsign, hdigits, rfl⟩
  · exact skipFrom_number hspot hrest
  have hdigit : ∀ b, Ascii.isDigit b = true →
      NumberSpot.step? .exponentDigits b = some .exponentDigits := fun b hb => if_pos hb
  have hfirst : ∀ b, Ascii.isDigit b = true →
      NumberSpot.step? .exponentSign b = some .exponentDigits := fun b hb => if_pos hb
  have hsigned : skipFrom (.number .exponentSign) stack (digits ++ rest) =
      skipFrom .ended stack rest := by
    rw [skipFrom_part hfirst hdigit hdigits, skipFrom_number rfl hrest]
  rw [List.cons_append, List.append_assoc, skipFrom_step (hletter letter hl)]
  rcases hsign with rfl | rfl | rfl
  · rw [List.nil_append, skipFrom_part (fun b => step?_exponent) hdigit hdigits,
      skipFrom_number rfl hrest]
  · rw [List.singleton_append, skipFrom_step rfl, hsigned]
  · rw [List.singleton_append, skipFrom_step rfl, hsigned]

theorem skipFrom_fraction {spot : NumberSpot} (hspot : spot.isComplete = true)
    (hpoint : spot.step? Ascii.point = some .point)
    (hletter : ∀ b, b = Ascii.octet 'e' ∨ b = Ascii.octet 'E' → spot.step? b = some .exponent)
    {fraction exponent : Bytes} (h : IsFraction fraction) (h' : IsExponent exponent)
    (hrest : Ends rest) :
    skipFrom (.number spot) stack (fraction ++ (exponent ++ rest)) =
      skipFrom .ended stack rest := by
  rcases h with rfl | ⟨digits, hdigits, rfl⟩
  · exact skipFrom_exponent hspot hletter h' hrest
  have hbehind : ∀ b, b = Ascii.octet 'e' ∨ b = Ascii.octet 'E' →
      NumberSpot.step? .fraction b = some .exponent := by
    rintro b (rfl | rfl) <;> rfl
  have hfirst : ∀ b, Ascii.isDigit b = true →
      NumberSpot.step? .point b = some .fraction := fun b hb => if_pos hb
  have hdigit : ∀ b, Ascii.isDigit b = true →
      NumberSpot.step? .fraction b = some .fraction := fun b hb => if_pos hb
  rw [List.cons_append, skipFrom_step hpoint, skipFrom_part hfirst hdigit hdigits]
  exact skipFrom_exponent rfl hbehind h' hrest

theorem skipFrom_whole {spot : Spot} {whole fraction exponent : Bytes}
    (hzero : step spot stack 0x30 = .next (.number .zero) stack)
    (hspot : ∀ b, b ≠ 0x30 → Ascii.isDigit b = true →
      step spot stack b = .next (.number .whole) stack)
    (h : IsWhole whole) (hfraction : IsFraction fraction) (hexponent : IsExponent exponent)
    (hrest : Ends rest) :
    skipFrom spot stack (whole ++ (fraction ++ (exponent ++ rest))) =
      skipFrom .ended stack rest := by
  rcases h with rfl | ⟨b, digits, rfl, hb, -, hdigits⟩
  · have hletter : ∀ b, b = Ascii.octet 'e' ∨ b = Ascii.octet 'E' →
        NumberSpot.step? .zero b = some .exponent := by
      rintro b (rfl | rfl) <;> rfl
    rw [List.singleton_append, skipFrom_of_next hzero]
    exact skipFrom_fraction rfl rfl hletter hfraction hexponent hrest
  · have hletter : ∀ b, b = Ascii.octet 'e' ∨ b = Ascii.octet 'E' →
        NumberSpot.step? .whole b = some .exponent := by
      rintro b (rfl | rfl) <;> rfl
    have hdigit : ∀ b, Ascii.isDigit b = true →
        NumberSpot.step? .whole b = some .whole := fun b hb => if_pos hb
    obtain ⟨hhead, htail⟩ := List.forall_mem_cons.1 hdigits
    rw [List.cons_append, skipFrom_of_next (hspot b hb hhead), skipFrom_digits hdigit htail]
    exact skipFrom_fraction rfl rfl hletter hfraction hexponent hrest

theorem stepValue_digit (hb : b ≠ 0x30) (h : Ascii.isDigit b = true) :
    stepValue stack b = .next (.number .whole) stack := by
  have hne : ∀ b' : UInt8, Ascii.isDigit b' = false → b ≠ b' := by
    rintro b' hb' rfl
    exact Bool.false_ne_true (hb'.symm.trans h)
  simp only [stepValue, isBlank_of_isDigit h, hne (Ascii.octet 'n') (by decide),
    hne (Ascii.octet 't') (by decide), hne (Ascii.octet 'f') (by decide),
    hne Ascii.minus (by decide), hb, h, Bool.false_eq_true, ↓reduceIte]

theorem skips_number (h : IsNumber octets) : Skips octets := by
  intro stack rest hrest
  obtain ⟨sign, whole, fraction, exponent, hsign, hwhole, hfraction, hexponent, rfl⟩ := h
  simp only [List.append_assoc]
  rcases hsign with rfl | rfl
  · exact skipFrom_whole rfl (fun b => stepValue_digit) hwhole hfraction hexponent hrest
  · have hsigned : ∀ b, b ≠ 0x30 → Ascii.isDigit b = true →
        step (.number .sign) stack b = .next (.number .whole) stack := by
      intro b hb hdigit
      simp [step, stepNumber, NumberSpot.step?, hb, hdigit]
    rw [List.singleton_append, skipFrom_of_next rfl]
    exact skipFrom_whole rfl hsigned hwhole hfraction hexponent hrest

def Bracket.itemSpot : Bracket → Spot
  | list => .value
  | object => .name

/-- Where the reader stands in front of an item or a closing bracket. -/
def rowSpot (isFirst : Bool) : Spot := if isFirst then .opened else .ended

section row

variable {bracket : Bracket}

theorem step_rowSpot_blank (isFirst : Bool) (h : isBlank b = true) :
    step (rowSpot isFirst) (bracket :: stack) b = .next (rowSpot isFirst) (bracket :: stack) := by
  cases isFirst <;> cases bracket <;> simp [rowSpot, step, stepOpened, stepEnded, h]

theorem step_value_blank (h : isBlank b = true) : step .value stack b = .next .value stack :=
  if_pos h

theorem step_itemSpot_blank (h : isBlank b = true) :
    step bracket.itemSpot (bracket :: stack) b = .next bracket.itemSpot (bracket :: stack) := by
  cases bracket <;> exact if_pos h

theorem step_rowSpot_close (isFirst : Bool) :
    step (rowSpot isFirst) (bracket :: stack) bracket.close = complete stack := by
  cases isFirst <;> cases bracket <;> rfl

theorem skipFrom_opened (h : Opens octets) (rest : Bytes) :
    skipFrom .opened (bracket :: stack) (octets ++ rest) =
      skipFrom bracket.itemSpot (bracket :: stack) (octets ++ rest) := by
  obtain ⟨b, octets, rfl, hb, hlist, hobject⟩ := h
  have hstep : step .opened (bracket :: stack) b = step bracket.itemSpot (bracket :: stack) b := by
    cases bracket <;>
      simp only [step, stepOpened, Bracket.itemSpot, hb, hlist, hobject, Bool.false_eq_true,
        ↓reduceIte]
  rw [List.cons_append, skipFrom, skipFrom, hstep]

/-- If each item between two brackets is passed over, all of them are. -/
theorem skipFrom_row {isFirst : Bool} {items : List Bytes} {row : Bytes}
    (hitems : ∀ item ∈ items, Opens item ∧ ∀ rest, Ends rest →
      skipFrom bracket.itemSpot (bracket :: stack) (item ++ rest) =
        skipFrom .ended (bracket :: stack) rest)
    (h : IsRow isFirst items row) (rest : Bytes) :
    skipFrom (rowSpot isFirst) (bracket :: stack) (row ++ bracket.close :: rest) =
      skipFrom .ended stack rest := by
  induction h with
  | nil hblanks =>
    rw [skipFrom_blanks hblanks fun b => step_rowSpot_blank _]
    exact skipFrom_of_complete (step_rowSpot_close _) rest
  | @cons isFirst before behind item row items hbefore hbehind hrow ih =>
    obtain ⟨⟨hopens, hitem⟩, hitems⟩ := List.forall_mem_cons.1 hitems
    have hends : Ends (row ++ bracket.close :: rest) :=
      hrow.ends (ends_cons _ (by cases bracket <;> simp [Bracket.close]))
    have hrest : skipFrom bracket.itemSpot (bracket :: stack)
        (item ++ (row ++ bracket.close :: rest)) = skipFrom .ended stack rest := by
      rw [hitem _ hends]
      exact ih hitems
    simp only [List.append_assoc]
    rw [skipFrom_blanks hbefore fun b => step_rowSpot_blank _]
    cases isFirst with
    | true =>
      rw [separator, if_pos rfl, List.nil_append,
        skipFrom_blanks hbehind fun b => step_rowSpot_blank _]
      exact (skipFrom_opened hopens _).trans hrest
    | false =>
      have hcomma : step (rowSpot false) (bracket :: stack) Ascii.comma =
          .next bracket.itemSpot (bracket :: stack) := by
        cases bracket <;> rfl
      rw [separator, if_neg (by decide), List.singleton_append, skipFrom_of_next hcomma,
        skipFrom_blanks hbehind fun b => step_itemSpot_blank, hrest]

end row

/-- A name, a colon and a value are passed over as an item of an object. -/
theorem skipFrom_member {name value : Bytes} (hname : IsLooseText name) (hvalue : Skips value)
    (h : IsMember name value octets) (hrest : Ends rest) :
    skipFrom .name stack (octets ++ rest) = skipFrom .ended stack rest := by
  obtain ⟨before, behind, hbefore, hbehind, rfl⟩ := h
  have hcolon : ∀ b, isBlank b = true → step .colon stack b = .next .colon stack :=
    fun b hb => if_pos hb
  simp only [List.append_assoc, List.cons_append]
  rw [skipFrom_name hname, skipFrom_blanks hbefore hcolon, skipFrom_of_next rfl,
    skipFrom_blanks hbehind fun b => step_value_blank]
  exact hvalue stack rest hrest

theorem skips_row {bracket : Bracket} {items : List Bytes} {row : Bytes}
    (hitems : ∀ item ∈ items, Opens item ∧ ∀ stack rest, Ends rest →
      skipFrom bracket.itemSpot (bracket :: stack) (item ++ rest) =
        skipFrom .ended (bracket :: stack) rest)
    (hrow : IsRow true items row) : Skips (bracket.opening :: (row ++ [bracket.close])) := by
  intro stack rest _
  have hopening : step .value stack bracket.opening = .next .opened (bracket :: stack) := by
    cases bracket <;> rfl
  rw [List.cons_append, List.append_assoc, List.singleton_append, skipFrom_of_next hopening]
  exact skipFrom_row (fun item hitem => (hitems item hitem).imp id fun h => h stack) hrow rest

mutual

/-- Any value is passed over, whatever brackets it is in. -/
theorem skips_value {octets : Bytes} : IsLooseValue octets → Skips octets
  | .null => skips_null
  | .bool b => skips_bool b
  | .number h => skips_number h
  | .text h => skips_text h
  | .row hitems hrow =>
    skips_row (fun item hitem =>
      ⟨(hitems item hitem).opens, skipFrom_item (hitems item hitem)⟩) hrow

theorem skipFrom_item {bracket : Bracket} {octets : Bytes} : IsLooseItem bracket octets →
    ∀ stack rest, Ends rest → skipFrom bracket.itemSpot (bracket :: stack) (octets ++ rest) =
      skipFrom .ended (bracket :: stack) rest
  | .element h, _ => skips_value h _
  | .member hname hvalue h, _ => fun _ => skipFrom_member hname (skips_value hvalue) h

end

theorem reads_skipValue (h : IsLooseValue octets) : Reads skipValue octets () := by
  intro blanks rest hb hrest
  have hvalue := skips_value h [] rest hrest
  rw [skipValue, skipFrom_blanks hb fun b => step_value_blank, hvalue, skipFrom_ended]

end Reader
end SyncedConfig.Json
