import SyncedConfig.Proofs.Accepted.Text
import SyncedConfig.Proofs.Spelling.Skipped

/-!
# What is passed over is a value

Nothing but loose values are passed over. At each spot, with any brackets open, there are octets
that complete the value. Every octet that is passed over leads from such octets to those behind it,
and so all of them together are a value.
-/
namespace SyncedConfig.Json.Reader

/-- The octets complete a number of which some octets have been read. -/
def NumberSpot.Completes : NumberSpot → Bytes → Prop
  | .sign, octets => ∃ whole fraction exponent, IsWhole whole ∧ IsFraction fraction ∧
      IsExponent exponent ∧ octets = whole ++ (fraction ++ exponent)
  | .zero, octets => ∃ fraction exponent, IsFraction fraction ∧ IsExponent exponent ∧
      octets = fraction ++ exponent
  | .whole, octets => ∃ digits fraction exponent, (∀ b ∈ digits, Ascii.isDigit b = true) ∧
      IsFraction fraction ∧ IsExponent exponent ∧ octets = digits ++ (fraction ++ exponent)
  | .point, octets => ∃ digits exponent, IsDigits digits ∧ IsExponent exponent ∧
      octets = digits ++ exponent
  | .fraction, octets => ∃ digits exponent, (∀ b ∈ digits, Ascii.isDigit b = true) ∧
      IsExponent exponent ∧ octets = digits ++ exponent
  | .exponent, octets => ∃ sign digits, (sign = [] ∨ sign = [Ascii.plus] ∨ sign = [Ascii.minus]) ∧
      IsDigits digits ∧ octets = sign ++ digits
  | .exponentSign, octets => IsDigits octets
  | .exponentDigits, octets => ∀ b ∈ octets, Ascii.isDigit b = true

theorem isDigits_cons {b : UInt8} {digits : Bytes} (hb : Ascii.isDigit b = true)
    (h : ∀ b ∈ digits, Ascii.isDigit b = true) : IsDigits (b :: digits) :=
  ⟨List.cons_ne_nil b digits, List.forall_mem_cons.2 ⟨hb, h⟩⟩

theorem isExponent_cons {b : UInt8} {octets : Bytes}
    (hb : b = Ascii.octet 'e' ∨ b = Ascii.octet 'E')
    (h : NumberSpot.Completes .exponent octets) : IsExponent (b :: octets) := by
  obtain ⟨sign, digits, hsign, hdigits, rfl⟩ := h
  exact .inr ⟨b, sign, digits, hb, hsign, hdigits, rfl⟩

theorem isFraction_cons {octets : Bytes} (h : NumberSpot.Completes .point octets) :
    ∃ fraction exponent, IsFraction fraction ∧ IsExponent exponent ∧
      Ascii.point :: octets = fraction ++ exponent := by
  obtain ⟨digits, exponent, hdigits, hexponent, rfl⟩ := h
  exact ⟨Ascii.point :: digits, exponent, .inr ⟨digits, hdigits, rfl⟩, hexponent, rfl⟩

/-- Each octet of a number leads from what completes it to what is behind the octet. -/
theorem NumberSpot.completes_of_step {spot next : NumberSpot} {b : UInt8} {octets : Bytes}
    (hstep : spot.step? b = some next) (h : next.Completes octets) :
    spot.Completes (b :: octets) := by
  cases spot with
  | sign =>
    simp only [step?] at hstep
    split at hstep
    next hzero =>
      cases hstep
      obtain ⟨fraction, exponent, hfraction, hexponent, rfl⟩ := h
      exact ⟨[0x30], fraction, exponent, .inl rfl, hfraction, hexponent, by rw [hzero]; rfl⟩
    next hzero =>
      split at hstep
      next hdigit =>
        cases hstep
        obtain ⟨digits, fraction, exponent, hdigits, hfraction, hexponent, rfl⟩ := h
        exact ⟨b :: digits, fraction, exponent,
          .inr ⟨b, digits, rfl, hzero, isDigits_cons hdigit hdigits⟩, hfraction, hexponent, rfl⟩
      next => cases hstep
  | zero =>
    simp only [step?] at hstep
    split at hstep
    next hpoint =>
      cases hstep
      rw [hpoint]
      exact isFraction_cons h
    next =>
      split at hstep
      next hletter =>
        cases hstep
        exact ⟨[], _, .inl rfl, isExponent_cons (by simpa using hletter) h, rfl⟩
      next => cases hstep
  | whole =>
    simp only [step?] at hstep
    split at hstep
    next hdigit =>
      cases hstep
      obtain ⟨digits, fraction, exponent, hdigits, hfraction, hexponent, rfl⟩ := h
      exact ⟨b :: digits, fraction, exponent, List.forall_mem_cons.2 ⟨hdigit, hdigits⟩, hfraction,
        hexponent, rfl⟩
    next =>
      split at hstep
      next hpoint =>
        cases hstep
        obtain ⟨fraction, exponent, hfraction, hexponent, heq⟩ := isFraction_cons h
        exact ⟨[], fraction, exponent, List.forall_mem_nil _, hfraction, hexponent,
          by rw [hpoint, heq]; rfl⟩
      next =>
        split at hstep
        next hletter =>
          cases hstep
          exact ⟨[], [], _, List.forall_mem_nil _, .inl rfl,
            isExponent_cons (by simpa using hletter) h, rfl⟩
        next => cases hstep
  | point =>
    simp only [step?] at hstep
    split at hstep
    next hdigit =>
      cases hstep
      obtain ⟨digits, exponent, hdigits, hexponent, rfl⟩ := h
      exact ⟨b :: digits, exponent, isDigits_cons hdigit hdigits, hexponent, rfl⟩
    next => cases hstep
  | fraction =>
    simp only [step?] at hstep
    split at hstep
    next hdigit =>
      cases hstep
      obtain ⟨digits, exponent, hdigits, hexponent, rfl⟩ := h
      exact ⟨b :: digits, exponent, List.forall_mem_cons.2 ⟨hdigit, hdigits⟩, hexponent, rfl⟩
    next =>
      split at hstep
      next hletter =>
        cases hstep
        exact ⟨[], _, List.forall_mem_nil _, isExponent_cons (by simpa using hletter) h, rfl⟩
      next => cases hstep
  | exponent =>
    simp only [step?] at hstep
    split at hstep
    next hsign =>
      cases hstep
      simp only [Bool.or_eq_true, decide_eq_true_eq] at hsign
      refine ⟨[b], octets, ?_, h, rfl⟩
      rcases hsign with rfl | rfl <;> simp
    next =>
      split at hstep
      next hdigit =>
        cases hstep
        exact ⟨[], _, .inl rfl, isDigits_cons hdigit h, rfl⟩
      next => cases hstep
  | exponentSign =>
    simp only [step?] at hstep
    split at hstep
    next hdigit =>
      cases hstep
      exact isDigits_cons hdigit h
    next => cases hstep
  | exponentDigits =>
    simp only [step?] at hstep
    split at hstep
    next hdigit =>
      cases hstep
      exact List.forall_mem_cons.2 ⟨hdigit, h⟩
    next => cases hstep

theorem NumberSpot.completes_nil {spot : NumberSpot} (h : spot.isComplete = true) :
    spot.Completes [] := by
  cases spot with
  | zero => exact ⟨[], [], .inl rfl, .inl rfl, rfl⟩
  | whole => exact ⟨[], [], [], List.forall_mem_nil _, .inl rfl, .inl rfl, rfl⟩
  | fraction => exact ⟨[], [], List.forall_mem_nil _, .inl rfl, rfl⟩
  | exponentDigits => exact List.forall_mem_nil _
  | _ => cases h

/-- The octets complete a row of items between brackets, and then what is demanded behind it. -/
def ClosesRow (behind : Bytes → Prop) (bracket : Bracket) (isFirst : Bool) (octets : Bytes) :
    Prop :=
  ∃ items row rest, (∀ item ∈ items, IsLooseItem bracket item) ∧ IsRow isFirst items row ∧
    octets = row ++ bracket.close :: rest ∧ behind rest

/-- Behind a value, the octets complete those in whose brackets it stands. -/
def Closes : List Bracket → Bytes → Prop
  | [] => fun octets => octets = []
  | bracket :: outer => ClosesRow (Closes outer) bracket false

def CompletesValue (stack : List Bracket) (octets : Bytes) : Prop :=
  ∃ blanks value rest, Blank blanks ∧ IsLooseValue value ∧ octets = blanks ++ (value ++ rest) ∧
    Closes stack rest

def CompletesMember (stack : List Bracket) (octets : Bytes) : Prop :=
  ∃ blanks rest, Blank blanks ∧ octets = blanks ++ Ascii.colon :: rest ∧ CompletesValue stack rest

def CompletesText (isName : Bool) (stack : List Bracket) (octets : Bytes) : Prop :=
  ∃ (pieces : List Bytes) (rest : Bytes), (∀ piece ∈ pieces, IsLoosePiece piece) ∧
    octets = pieces.flatten ++ Ascii.quote :: rest ∧
    if isName then CompletesMember stack rest else Closes stack rest

/-- The octets complete a skipped value of which some octets have been passed over. -/
def Completes : Spot → List Bracket → Bytes → Prop
  | .value, stack, octets => CompletesValue stack octets
  | .opened, [], _ => True -- the bracket that has been opened is on the stack
  | .opened, bracket :: outer, octets => ClosesRow (Closes outer) bracket true octets
  | .ended, stack, octets => Closes stack octets
  | .name, stack, octets => ∃ blanks rest, Blank blanks ∧
      octets = blanks ++ Ascii.quote :: rest ∧ CompletesText true stack rest
  | .colon, stack, octets => CompletesMember stack octets
  | .word letters, stack, octets => ∃ rest, octets = letters ++ rest ∧ Closes stack rest
  | .text isName, stack, octets => CompletesText isName stack octets
  | .escape isName, stack, octets => ∃ escape rest, IsLoosePiece (Ascii.backslash :: escape) ∧
      octets = escape ++ rest ∧ CompletesText isName stack rest
  | .digits isName seen, stack, octets => seen.length ≤ 3 → ∃ digits rest,
      IsLoosePiece (Ascii.backslash :: Ascii.octet 'u' :: (seen ++ digits)) ∧
      octets = digits ++ rest ∧ CompletesText isName stack rest
  | .number spot, stack, octets => ∃ tail rest, spot.Completes tail ∧ octets = tail ++ rest ∧
      Closes stack rest

variable {behind : Bytes → Prop} {bracket : Bracket} {isFirst : Bool} {stack outer : List Bracket}
  {b : UInt8} {octets : Bytes}

theorem blank_cons {blanks : Bytes} (hb : isBlank b = true) (h : Blank blanks) :
    Blank (b :: blanks) := List.forall_mem_cons.2 ⟨hb, h⟩

theorem ClosesRow.blank (h : ClosesRow behind bracket isFirst octets) (hb : isBlank b = true) :
    ClosesRow behind bracket isFirst (b :: octets) := by
  obtain ⟨items, row, rest, hitems, hrow, rfl, hrest⟩ := h
  refine ⟨items, b :: row, rest, hitems, ?_, rfl, hrest⟩
  cases hrow with
  | nil hblanks => exact .nil (blank_cons hb hblanks)
  | cons hbefore hbehind hrow => exact .cons (blank_cons hb hbefore) hbehind hrow

theorem ClosesRow.close {rest : Bytes} (h : behind rest) :
    ClosesRow behind bracket isFirst (bracket.close :: rest) :=
  ⟨[], [], rest, List.forall_mem_nil _, .nil blank_nil, rfl, h⟩

theorem ClosesRow.item {before gap item : Bytes} (h : ClosesRow behind bracket false octets)
    (hbefore : Blank before) (hgap : Blank gap) (hitem : IsLooseItem bracket item) :
    ClosesRow behind bracket isFirst
      (before ++ (separator isFirst ++ (gap ++ (item ++ octets)))) := by
  obtain ⟨items, row, rest, hitems, hrow, rfl, hrest⟩ := h
  refine ⟨item :: items, _, rest, List.forall_mem_cons.2 ⟨hitem, hitems⟩,
    .cons hbefore hgap hrow, ?_, hrest⟩
  simp

/-- A value is an element of the list in which it stands. -/
theorem CompletesValue.closesRow (h : CompletesValue (.list :: outer) octets) (isFirst : Bool) :
    ClosesRow (Closes outer) .list isFirst (separator isFirst ++ octets) := by
  obtain ⟨blanks, value, rest, hblanks, hvalue, rfl, hrest⟩ := h
  exact ClosesRow.item hrest blank_nil hblanks (.element hvalue)

theorem closesRow_of_name (h : Completes .name (.object :: outer) octets) (isFirst : Bool) :
    ClosesRow (Closes outer) .object isFirst (separator isFirst ++ octets) := by
  obtain ⟨blanks, _, hblanks, rfl, pieces, _, hpieces, rfl, before, _, hbefore, rfl, gap, value,
    rest, hgap, hvalue, rfl, hrest⟩ := h
  have hmember : IsLooseItem .object (Ascii.quote :: (pieces.flatten ++ [Ascii.quote]) ++
      (before ++ Ascii.colon :: (gap ++ value))) :=
    .member ⟨pieces, hpieces, rfl⟩ hvalue ⟨before, gap, hbefore, hgap, rfl⟩
  have hrow : ClosesRow (Closes outer) .object isFirst ([] ++ (separator isFirst ++ (blanks ++
      (Ascii.quote :: (pieces.flatten ++ [Ascii.quote]) ++
        (before ++ Ascii.colon :: (gap ++ value)) ++ rest)))) :=
    ClosesRow.item hrest blank_nil hblanks hmember
  simpa using hrow

/-- What is passed over from an octet on, if the octet does this to the value. -/
def Move.Takes (move : Move) (b : UInt8) (taken : Bytes) : Prop :=
  match move with
  | .next spot stack => ∃ octets, Completes spot stack octets ∧ taken = b :: octets
  | .last => taken = [b]
  | .over => taken = []
  | .wrong _ | .wrongBefore _ => False

variable {taken : Bytes}

theorem closes_of_complete (h : (complete stack).Takes b taken) :
    ∃ octets, Closes stack octets ∧ taken = b :: octets := by
  cases stack with
  | nil => exact ⟨[], rfl, h⟩
  | cons => exact h

theorem completesValue_cons {value rest : Bytes} (hvalue : IsLooseValue value)
    (hrest : Closes stack rest) : CompletesValue stack (value ++ rest) :=
  ⟨[], value, rest, blank_nil, hvalue, rfl, hrest⟩

theorem Move.takes_ite {c : Prop} [Decidable c] {move other : Move}
    (h : (if c then move else other).Takes b taken) :
    c ∧ move.Takes b taken ∨ ¬ c ∧ other.Takes b taken := by
  by_cases hc : c
  · rw [if_pos hc] at h
    exact .inl ⟨hc, h⟩
  · rw [if_neg hc] at h
    exact .inr ⟨hc, h⟩

theorem completes_of_stepValue (h : (stepValue stack b).Takes b taken) :
    CompletesValue stack taken := by
  rw [stepValue] at h
  obtain ⟨hb, h⟩ | ⟨-, h⟩ := Move.takes_ite h
  · obtain ⟨_, ⟨blanks, value, rest, hblanks, hvalue, rfl, hrest⟩, rfl⟩ := h
    exact ⟨b :: blanks, value, rest, blank_cons hb hblanks, hvalue, rfl, hrest⟩
  obtain ⟨hb, h⟩ | ⟨-, h⟩ := Move.takes_ite h
  · obtain ⟨_, ⟨rest, rfl, hrest⟩, rfl⟩ := h
    rw [hb]
    exact completesValue_cons .null hrest
  obtain ⟨hb, h⟩ | ⟨-, h⟩ := Move.takes_ite h
  · obtain ⟨_, ⟨rest, rfl, hrest⟩, rfl⟩ := h
    rw [hb]
    exact completesValue_cons (.bool true) hrest
  obtain ⟨hb, h⟩ | ⟨-, h⟩ := Move.takes_ite h
  · obtain ⟨_, ⟨rest, rfl, hrest⟩, rfl⟩ := h
    rw [hb]
    exact completesValue_cons (.bool false) hrest
  obtain ⟨hb, h⟩ | ⟨-, h⟩ := Move.takes_ite h
  · obtain ⟨_, ⟨_, rest, ⟨whole, fraction, exponent, hwhole, hfraction, hexponent, rfl⟩, rfl,
      hrest⟩, rfl⟩ := h
    have hnumber : IsNumber (Ascii.minus :: (whole ++ (fraction ++ exponent))) :=
      ⟨[Ascii.minus], whole, fraction, exponent, .inr rfl, hwhole, hfraction, hexponent, rfl⟩
    rw [hb]
    exact completesValue_cons (.number hnumber) hrest
  obtain ⟨hb, h⟩ | ⟨hzero, h⟩ := Move.takes_ite h
  · obtain ⟨_, ⟨_, rest, ⟨fraction, exponent, hfraction, hexponent, rfl⟩, rfl, hrest⟩, rfl⟩ := h
    have hnumber : IsNumber (0x30 :: (fraction ++ exponent)) :=
      ⟨[], [0x30], fraction, exponent, .inl rfl, .inl rfl, hfraction, hexponent, rfl⟩
    rw [hb]
    exact completesValue_cons (.number hnumber) hrest
  obtain ⟨hdigit, h⟩ | ⟨-, h⟩ := Move.takes_ite h
  · obtain ⟨_, ⟨_, rest, ⟨digits, fraction, exponent, hdigits, hfraction, hexponent, rfl⟩, rfl,
      hrest⟩, rfl⟩ := h
    have hwhole : IsWhole (b :: digits) :=
      .inr ⟨b, digits, rfl, hzero, isDigits_cons hdigit hdigits⟩
    have hnumber : IsNumber (b :: (digits ++ (fraction ++ exponent))) :=
      ⟨[], b :: digits, fraction, exponent, .inl rfl, hwhole, hfraction, hexponent, rfl⟩
    exact completesValue_cons (.number hnumber) hrest
  obtain ⟨hb, h⟩ | ⟨-, h⟩ := Move.takes_ite h
  · obtain ⟨_, ⟨pieces, rest, hpieces, rfl, hrest⟩, rfl⟩ := h
    have htext := completesValue_cons (.text ⟨pieces, hpieces, rfl⟩) hrest
    rw [hb]
    simpa using htext
  obtain ⟨hb, h⟩ | ⟨-, h⟩ := Move.takes_ite h
  · obtain ⟨_, ⟨items, row, rest, hitems, hrow, rfl, hrest⟩, rfl⟩ := h
    have hlist : IsLooseValue (Ascii.openList :: (row ++ [Ascii.closeList])) := .row hitems hrow
    have hvalue := completesValue_cons hlist hrest
    rw [hb]
    simpa [Bracket.close] using hvalue
  obtain ⟨hb, h⟩ | ⟨-, h⟩ := Move.takes_ite h
  · obtain ⟨_, ⟨items, row, rest, hitems, hrow, rfl, hrest⟩, rfl⟩ := h
    have hobject : IsLooseValue (Ascii.openObject :: (row ++ [Ascii.closeObject])) :=
      .row hitems hrow
    have hvalue := completesValue_cons hobject hrest
    rw [hb]
    simpa [Bracket.close] using hvalue
  exact h.elim

theorem completes_of_stepName (h : (stepName stack b).Takes b taken) :
    Completes .name stack taken := by
  rw [stepName] at h
  split at h
  next hb =>
    obtain ⟨_, ⟨blanks, rest, hblanks, rfl, hrest⟩, rfl⟩ := h
    exact ⟨b :: blanks, rest, blank_cons hb hblanks, rfl, hrest⟩
  split at h
  next hb =>
    obtain ⟨octets, htext, rfl⟩ := h
    exact ⟨[], octets, blank_nil, by rw [hb]; rfl, htext⟩
  next => exact h.elim

theorem completes_of_stepOpened (h : (stepOpened stack b).Takes b taken) :
    Completes .opened stack taken := by
  unfold stepOpened at h
  split at h
  next hb =>
    obtain ⟨octets, hoctets, rfl⟩ := h
    cases stack with
    | nil => trivial
    | cons => exact ClosesRow.blank hoctets hb
  next =>
    split at h
    next outer =>
      split at h
      next hb =>
        obtain ⟨octets, hoctets, rfl⟩ := closes_of_complete h
        rw [hb]
        exact ClosesRow.close hoctets
      next => exact (completes_of_stepValue h).closesRow true
    next outer =>
      split at h
      next hb =>
        obtain ⟨octets, hoctets, rfl⟩ := closes_of_complete h
        rw [hb]
        exact ClosesRow.close hoctets
      next => exact closesRow_of_name (completes_of_stepName h) true
    next => trivial

theorem closes_of_stepEnded (h : (stepEnded stack b).Takes b taken) : Closes stack taken := by
  unfold stepEnded at h
  split at h
  next => exact h
  next outer =>
    split at h
    next hb =>
      obtain ⟨octets, hoctets, rfl⟩ := h
      exact ClosesRow.blank hoctets hb
    split at h
    next hb =>
      obtain ⟨octets, hoctets, rfl⟩ := h
      rw [hb]
      exact CompletesValue.closesRow hoctets false
    split at h
    next hb =>
      obtain ⟨octets, hoctets, rfl⟩ := closes_of_complete h
      rw [hb]
      exact ClosesRow.close hoctets
    next => exact h.elim
  next outer =>
    split at h
    next hb =>
      obtain ⟨octets, hoctets, rfl⟩ := h
      exact ClosesRow.blank hoctets hb
    split at h
    next hb =>
      obtain ⟨octets, hoctets, rfl⟩ := h
      rw [hb]
      exact closesRow_of_name hoctets false
    split at h
    next hb =>
      obtain ⟨octets, hoctets, rfl⟩ := closes_of_complete h
      rw [hb]
      exact ClosesRow.close hoctets
    next => exact h.elim

/-- A number ends where it is complete, in front of what comes behind the value. -/
theorem completes_of_stepNumber {spot : NumberSpot} (h : (stepNumber spot stack b).Takes b taken) :
    Completes (.number spot) stack taken := by
  have hended (hspot : spot.isComplete = true) (h : (stepEnded stack b).Takes b taken) :
      Completes (.number spot) stack taken :=
    ⟨[], taken, NumberSpot.completes_nil hspot, rfl, closes_of_stepEnded h⟩
  unfold stepNumber at h
  split at h
  next next hstep =>
    obtain ⟨_, ⟨tail, rest, htail, rfl, hrest⟩, rfl⟩ := h
    exact ⟨b :: tail, rest, NumberSpot.completes_of_step hstep htail, rfl, hrest⟩
  next =>
    split at h
    next =>
      split at h
      next => exact h.elim
      next => exact hended rfl h
    next =>
      split at h
      next hspot => exact hended hspot h
      next => exact h.elim

theorem CompletesText.cons {isName : Bool} {piece octets : Bytes} (hpiece : IsLoosePiece piece)
    (h : CompletesText isName stack octets) : CompletesText isName stack (piece ++ octets) := by
  obtain ⟨pieces, rest, hpieces, rfl, hrest⟩ := h
  refine ⟨piece :: pieces, rest, List.forall_mem_cons.2 ⟨hpiece, hpieces⟩, ?_, hrest⟩
  simp

theorem completes_of_stepText {isName : Bool} (h : (stepText isName stack b).Takes b taken) :
    CompletesText isName stack taken := by
  rw [stepText] at h
  split at h
  next hb =>
    rw [hb] at h
    cases isName with
    | true =>
      obtain ⟨octets, hoctets, rfl⟩ := h
      exact ⟨[], octets, List.forall_mem_nil _, rfl, hoctets⟩
    | false =>
      obtain ⟨octets, hoctets, rfl⟩ := closes_of_complete h
      exact ⟨[], octets, List.forall_mem_nil _, rfl, hoctets⟩
  next hquote =>
    split at h
    next hb =>
      obtain ⟨_, ⟨escape, rest, hescape, rfl, hrest⟩, rfl⟩ := h
      rw [hb]
      exact hrest.cons hescape
    next hbackslash =>
      split at h
      next => exact h.elim
      next hcontrol =>
        obtain ⟨octets, hoctets, rfl⟩ := h
        exact hoctets.cons (.plain ⟨hquote, hbackslash, by simpa using hcontrol⟩)

/-- Each octet leads from what completes the value to what is behind the octet. -/
theorem completes_of_step {spot : Spot} (h : (step spot stack b).Takes b taken) :
    Completes spot stack taken := by
  cases spot with
  | value => exact completes_of_stepValue h
  | opened => exact completes_of_stepOpened h
  | ended => exact closes_of_stepEnded h
  | name => exact completes_of_stepName h
  | colon =>
    simp only [step] at h
    split at h
    next hb =>
      obtain ⟨_, ⟨blanks, rest, hblanks, rfl, hrest⟩, rfl⟩ := h
      exact ⟨b :: blanks, rest, blank_cons hb hblanks, rfl, hrest⟩
    split at h
    next hb =>
      obtain ⟨octets, hoctets, rfl⟩ := h
      exact ⟨[], octets, blank_nil, by rw [hb]; rfl, hoctets⟩
    next => exact h.elim
  | word letters =>
    cases letters with
    | nil => exact ⟨taken, rfl, closes_of_stepEnded h⟩
    | cons letter letters =>
      simp only [step] at h
      split at h
      next hb =>
        split at h
        next hlast =>
          obtain ⟨octets, hoctets, rfl⟩ := closes_of_complete h
          rw [List.isEmpty_iff] at hlast
          exact ⟨octets, by rw [hb, hlast]; rfl, hoctets⟩
        next =>
          obtain ⟨_, ⟨rest, rfl, hrest⟩, rfl⟩ := h
          exact ⟨rest, by rw [hb]; rfl, hrest⟩
      next => exact h.elim
  | text isName => exact completes_of_stepText h
  | escape isName =>
    simp only [step] at h
    split at h
    next hb =>
      obtain ⟨_, hdigits, rfl⟩ := h
      obtain ⟨digits, rest, hpiece, rfl, hrest⟩ := hdigits (by simp)
      exact ⟨b :: digits, rest, by rw [hb]; exact hpiece, rfl, hrest⟩
    split at h
    next hshort =>
      obtain ⟨octets, hoctets, rfl⟩ := h
      obtain ⟨octet, hoctet⟩ := Option.isSome_iff_exists.1 hshort
      obtain ⟨letter, c, hmem, rfl, -⟩ := exists_of_unescape? hoctet
      exact ⟨[_], octets, .short hmem, rfl, hoctets⟩
    next => exact h.elim
  | digits isName seen =>
    intro hseen
    simp only [step] at h
    split at h
    next hless =>
      obtain ⟨_, hdigits, rfl⟩ := h
      obtain ⟨digits, rest, hpiece, rfl, hrest⟩ := hdigits (by simp; omega)
      exact ⟨b :: digits, rest, by simpa using hpiece, rfl, hrest⟩
    next hfull =>
      split at h
      next hnumber =>
        obtain ⟨octets, hoctets, rfl⟩ := h
        obtain ⟨n, hn⟩ := Option.isSome_iff_exists.1 hnumber
        obtain ⟨b₁, b₂, b₃, rfl⟩ := List.length_eq_three.1 (show seen.length = 3 by omega)
        exact ⟨[b], octets, .code (isCode_of_hexNumber? hn), rfl, hoctets⟩
      next => exact h.elim
  | number spot => exact completes_of_stepNumber h

theorem closes_of_endBehind (h : endBehind stack = none) : Closes stack [] := by
  cases stack with
  | nil => rfl
  | cons bracket => cases bracket <;> cases h

theorem completes_of_endCause? {spot : Spot} (h : endCause? spot stack = none) :
    Completes spot stack [] := by
  cases spot with
  | opened =>
    cases stack with
    | nil => trivial
    | cons bracket => cases bracket <;> cases h
  | ended => exact closes_of_endBehind h
  | number spot =>
    simp only [endCause?] at h
    split at h
    next hspot => exact ⟨[], [], NumberSpot.completes_nil hspot, rfl, closes_of_endBehind h⟩
    next => cases h
  | _ => cases h

theorem completes_of_skipFrom {spot : Spot} {input rest : Bytes} {u : Unit}
    (h : skipFrom spot stack input = .ok (u, rest)) :
    ∃ taken, input = taken ++ rest ∧ Completes spot stack taken := by
  induction input generalizing spot stack with
  | nil =>
    rw [skipFrom] at h
    split at h
    next => cases h
    next hend =>
      cases h
      exact ⟨[], rfl, completes_of_endCause? hend⟩
  | cons b input ih =>
    rw [skipFrom] at h
    split at h
    next hstep =>
      obtain ⟨octets, rfl, hoctets⟩ := ih h
      refine ⟨b :: octets, rfl, completes_of_step (b := b) ?_⟩
      rw [hstep]
      exact ⟨octets, hoctets, rfl⟩
    next hstep =>
      cases h
      refine ⟨[b], rfl, completes_of_step (b := b) ?_⟩
      rw [hstep]
      rfl
    next hstep =>
      cases h
      refine ⟨[], rfl, completes_of_step (b := b) ?_⟩
      rw [hstep]
      rfl
    next => cases h
    next => cases h

theorem takesOnly_skipValue : TakesOnly skipValue fun _ octets => IsLooseValue octets := by
  intro input _ rest h
  obtain ⟨_, rfl, blanks, value, _, hblanks, hvalue, rfl, rfl⟩ := completes_of_skipFrom h
  exact ⟨blanks, value, hblanks, by simp, hvalue⟩

end SyncedConfig.Json.Reader
