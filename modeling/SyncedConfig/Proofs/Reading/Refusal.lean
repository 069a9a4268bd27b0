import SyncedConfig.Json.Reader.Brackets
import SyncedConfig.Json.Reader.Ignored
import SyncedConfig.Json.Reader.Scalar

/-!
# In which words data is refused

What is wrong with some data is said in words that the reader brings along: what it expected, and
which names it knows. Only a name that the reader does not know is repeated from the data. What
is wrong with the brackets, scalars and texts themselves needs no words at all.
-/
namespace SyncedConfig.Json

/-- The words of a cause that do not come from the data. -/
def Cause.words : Cause → List String
  | .mistyped _ expected | .outOfRange _ expected | .badLength _ expected => [expected]
  | .missing field | .repeated field => [field]
  | .unknownField _ known | .unknownTag _ known => known
  | .overflow type => [type]
  | _ => []

/-- The name that a cause repeats from the data as it is. -/
def Cause.echo? : Cause → Option String
  | .unknownField name _ | .unknownTag name _ => some name
  | _ => none

namespace Reader

variable {α β σ : Type} {words : List String}

/-- Whatever the reader refuses, it refuses in these words. -/
def Speaks (words : List String) (reader : Reader α) : Prop :=
  ∀ input fault, reader input = .error fault → fault.cause.words ⊆ words

theorem speaks_of_ok {reader : Reader α} (h : ∀ input, ∃ result, reader input = .ok result) :
    Speaks words reader := by
  intro input fault hfault
  obtain ⟨result, hresult⟩ := h input
  rw [hresult] at hfault
  cases hfault

theorem speaks_pure (a : α) : Speaks words (pure a : Reader α) := speaks_of_ok fun _ => ⟨_, rfl⟩

theorem Speaks.bind {reader : Reader α} {next : α → Reader β} (h : Speaks words reader)
    (hnext : ∀ a, Speaks words (next a)) : Speaks words (reader >>= next) := by
  intro input fault hfault
  cases hread : reader input with
  | error e =>
    simp only [Bind.bind, StateT.bind, hread, Except.bind] at hfault
    obtain rfl : e = fault := Except.error.inj hfault
    exact h input e hread
  | ok result =>
    simp only [Bind.bind, StateT.bind, hread, Except.bind] at hfault
    exact hnext result.1 result.2 fault hfault

theorem Speaks.map {reader : Reader α} (h : Speaks words reader) (f : α → β) :
    Speaks words (do return f (← reader)) := h.bind fun a => speaks_pure (f a)

theorem speaks_fail {cause : Cause} (h : cause.words ⊆ words) :
    Speaks words (fail cause : Reader α) := by
  rintro input _ ⟨⟩
  exact h

theorem speaks_failNext {cause : Cause} (h : cause.words ⊆ words) :
    Speaks words (failNext cause : Reader α) := by
  rintro input _ ⟨⟩
  exact h

theorem speaks_failWhole {cause : Cause} (h : cause.words ⊆ words) :
    Speaks words (failWhole cause : Reader α) := by
  rintro input _ ⟨⟩
  exact h

theorem speaks_skipBlanks : Speaks words skipBlanks := speaks_of_ok fun _ => ⟨_, rfl⟩

theorem speaks_peek? : Speaks words peek? := speaks_of_ok fun _ => ⟨_, rfl⟩

theorem speaks_advance : Speaks words advance := speaks_of_ok fun _ => ⟨_, rfl⟩

theorem speaks_peek_bind {next : Option UInt8 → Reader α} (h : ∀ b?, Speaks words (next b?)) :
    Speaks words (skipBlanks >>= fun _ => peek? >>= next) :=
  speaks_skipBlanks.bind fun _ => speaks_peek?.bind h

theorem speaks_valueStart : Speaks words valueStart := by
  refine speaks_peek_bind fun b? => ?_
  cases b? with
  | none => exact speaks_failNext (List.nil_subset _)
  | some b => exact speaks_pure b

theorem speaks_word (letters : Bytes) : Speaks words (word letters) := by
  induction letters with
  | nil => exact speaks_of_ok fun _ => ⟨_, rfl⟩
  | cons letter letters ih =>
    intro input fault hfault
    cases input with
    | nil =>
      cases hfault
      exact List.nil_subset _
    | cons b rest =>
      rw [word] at hfault
      split at hfault
      · exact ih rest fault hfault
      · cases hfault
        exact List.nil_subset _

theorem speaks_wordNull : Speaks words wordNull := speaks_advance.bind fun _ => speaks_word _

theorem speaks_wordTrue : Speaks words wordTrue := speaks_advance.bind fun _ => speaks_word _

theorem speaks_wordFalse : Speaks words wordFalse := speaks_advance.bind fun _ => speaks_word _

theorem words_textOctets {out : Bytes} {spot : TextSpot} {input : Bytes} {fault : Fault}
    (h : textOctets out spot input = .error fault) : fault.cause.words = [] := by
  fun_induction textOctets out spot input <;> simp_all
  all_goals (subst h; rfl)

theorem speaks_textToken : Speaks words textToken := by
  refine speaks_advance.bind fun _ => ?_
  intro input fault hfault
  rw [textBody] at hfault
  split at hfault
  next e he =>
    cases hfault
    rw [words_textOctets he]
    exact List.nil_subset _
  next octets rest _ =>
    dsimp only at hfault
    split at hfault <;> cases hfault
    exact List.nil_subset _

section numbers

variable {negative minus : Bool} {significand n left : Nat} {base : Int} {input : Bytes}
  {fault : Fault}

theorem words_double :
    double negative significand base input = .error fault → fault.cause.words = [] := by
  rw [double]
  cases scale? significand base with
  | some x => nofun
  | none =>
    rintro ⟨⟩
    rfl

theorem words_exponentBody :
    exponentBody negative significand base minus input = .error fault →
      fault.cause.words = [] := by
  fun_cases exponentBody negative significand base minus input with
  | case2 => exact words_double
  | case4 => nofun
  | _ =>
    rintro ⟨⟩
    rfl

theorem words_exponentPart :
    exponentPart negative significand base input = .error fault → fault.cause.words = [] := by
  fun_cases exponentPart negative significand base input with
  | case5 | case6 => exact words_double
  | _ => exact words_exponentBody

theorem words_fractionPart :
    fractionPart negative significand base input = .error fault → fault.cause.words = [] := by
  rw [fractionPart]
  split
  next =>
    rintro ⟨⟩
    cases input.isEmpty <;> rfl
  next => exact words_exponentPart

theorem words_afterWhole :
    afterWhole negative n left input = .error fault → fault.cause.words = [] := by
  fun_cases afterWhole negative n left input with
  | case1 => exact words_fractionPart
  | case2 => exact words_exponentPart
  | case3 | case5 => nofun
  | case4 | case6 => exact words_double

theorem words_magnitude : magnitude negative input = .error fault → fault.cause.words = [] := by
  fun_cases magnitude negative input with
  | case3 | case4 => exact words_afterWhole
  | _ =>
    rintro ⟨⟩
    rfl

theorem speaks_number : Speaks words number := by
  intro input fault hfault
  have hmute : fault.cause.words = [] := by
    revert hfault
    fun_cases number input <;> exact words_magnitude
  rw [hmute]
  exact List.nil_subset _

end numbers

theorem speaks_found (b : UInt8) : Speaks words (found b) := by
  rw [found]
  split
  · exact speaks_wordNull.map _
  split
  · exact speaks_wordTrue.map _
  split
  · exact speaks_wordFalse.map _
  split
  · exact speaks_number.map _
  split
  · exact speaks_textToken.map _
  split
  · exact speaks_pure _
  split
  · exact speaks_pure _
  · exact speaks_failNext (List.nil_subset _)

theorem speaks_mistyped {b : UInt8} {expected : String} (h : expected ∈ words) :
    Speaks words (mistyped b expected : Reader α) :=
  (speaks_found b).bind fun _ => speaks_fail (by simpa [Cause.words] using h)

theorem speaks_text (h : "a string" ∈ words) : Speaks words text := by
  refine speaks_valueStart.bind fun b => ?_
  split
  · exact speaks_textToken
  · exact speaks_mistyped h

theorem speaks_flag (h : "a boolean" ∈ words) : Speaks words flag := by
  refine speaks_valueStart.bind fun b => ?_
  split
  · exact speaks_wordTrue.map _
  split
  · exact speaks_wordFalse.map _
  · exact speaks_mistyped h

theorem speaks_unit (h : "unit" ∈ words) : Speaks words unit := by
  refine speaks_valueStart.bind fun b => ?_
  split
  · exact speaks_wordNull
  · exact speaks_mistyped h

theorem speaks_integer {least greatest : Int} {expected : String} (h : expected ∈ words) :
    Speaks words (integer least greatest expected) := by
  refine speaks_valueStart.bind fun b => ?_
  split
  · refine speaks_number.bind fun n => ?_
    cases n with
    | float x => exact speaks_fail (by simpa [Cause.words] using h)
    | integer n =>
      dsimp only
      split
      · exact speaks_pure n
      · exact speaks_fail (by simpa [Cause.words] using h)
  · exact speaks_mistyped h

theorem speaks_optional {reader : Reader α} (h : Speaks words reader) :
    Speaks words (optional reader) := by
  refine speaks_peek_bind fun b? => ?_
  split
  · exact speaks_wordNull.map _
  · exact h.map _

theorem Speaks.settle {body : Reader α} (h : Speaks words body) (leave : Bytes → Bytes) :
    Speaks words (settle leave body) := by
  intro input fault hfault
  rw [Reader.settle] at hfault
  split at hfault
  next cause rest hbody =>
    cases hfault
    exact h input (.floating cause rest) hbody
  next => exact h input fault hfault

theorem speaks_endList : Speaks words endList := by
  refine speaks_peek_bind fun b? => ?_
  cases b? with
  | none => exact speaks_failNext (List.nil_subset _)
  | some b =>
    dsimp only
    split
    · exact speaks_advance
    split
    · refine speaks_advance.bind fun _ => speaks_peek_bind fun b? => ?_
      split <;> exact speaks_failNext (List.nil_subset _)
    · exact speaks_failNext (List.nil_subset _)

theorem speaks_endObject : Speaks words endObject := by
  refine speaks_peek_bind fun b? => ?_
  cases b? with
  | none => exact speaks_failNext (List.nil_subset _)
  | some b =>
    dsimp only
    split
    · exact speaks_advance
    split <;> exact speaks_failNext (List.nil_subset _)

theorem Speaks.inList {body : Reader α} (h : Speaks words body) : Speaks words (inList body) :=
  speaks_advance.bind fun _ => (h.settle _).bind fun a => speaks_endList.bind fun _ => speaks_pure a

theorem Speaks.inObject {body : Reader α} (h : Speaks words body) : Speaks words (inObject body) :=
  speaks_advance.bind fun _ => (h.settle _).bind fun a =>
    speaks_endObject.bind fun _ => speaks_pure a

theorem speaks_nextItem (isFirst : Bool) : Speaks words (nextItem isFirst) := by
  refine speaks_peek_bind fun b? => ?_
  cases b? with
  | none => exact speaks_failNext (List.nil_subset _)
  | some b =>
    dsimp only
    split
    · exact speaks_pure _
    split
    · exact speaks_pure _
    split
    · refine speaks_advance.bind fun _ => speaks_peek_bind fun b? => ?_
      cases b? with
      | none => exact speaks_failNext (List.nil_subset _)
      | some b =>
        dsimp only
        split
        · exact speaks_failNext (List.nil_subset _)
        · exact speaks_pure _
    · exact speaks_failNext (List.nil_subset _)

theorem speaks_nextMember (isFirst : Bool) : Speaks words (nextMember isFirst) := by
  have hname (b : UInt8) (refuse : Cause) (hrefuse : refuse.words = []) :
      Speaks words (if b = Ascii.quote then pure true else failNext refuse : Reader Bool) := by
    split
    · exact speaks_pure _
    · exact speaks_failNext (hrefuse ▸ List.nil_subset _)
  refine speaks_peek_bind fun b? => ?_
  cases b? with
  | none => exact speaks_failNext (List.nil_subset _)
  | some b =>
    dsimp only
    split
    · exact speaks_pure _
    split
    · exact hname b _ rfl
    split
    · refine speaks_advance.bind fun _ => speaks_peek_bind fun b? => ?_
      cases b? with
      | none => exact speaks_failNext (List.nil_subset _)
      | some b =>
        dsimp only
        split
        · exact speaks_pure _
        split <;> exact speaks_failNext (List.nil_subset _)
    · exact speaks_failNext (List.nil_subset _)

theorem speaks_colon : Speaks words colon := by
  refine speaks_peek_bind fun b? => ?_
  cases b? with
  | none => exact speaks_failNext (List.nil_subset _)
  | some b =>
    dsimp only
    split
    · exact speaks_advance
    · exact speaks_failNext (List.nil_subset _)

theorem speaks_itemsUpTo {item : Reader α} (h : Speaks words item) (n : Nat) (isFirst : Bool) :
    Speaks words (itemsUpTo item n isFirst) := by
  induction n generalizing isFirst with
  | zero => exact speaks_failNext (List.nil_subset _)
  | succ n ih =>
    refine (speaks_nextItem isFirst).bind fun more => ?_
    split
    · exact h.bind fun a => (ih false).map _
    · exact speaks_pure _

theorem speaks_items {item : Reader α} (h : Speaks words item) : Speaks words (items item) :=
  fun input => speaks_itemsUpTo h input.length true input

theorem speaks_membersUpTo {member : String → σ → Reader σ}
    (h : ∀ name state, Speaks words (member name state)) (n : Nat) (isFirst : Bool) (state : σ) :
    Speaks words (membersUpTo member n isFirst state) := by
  induction n generalizing isFirst state with
  | zero => exact speaks_failNext (List.nil_subset _)
  | succ n ih =>
    refine (speaks_nextMember isFirst).bind fun more => ?_
    split
    · exact speaks_textToken.bind fun name => (h name state).bind fun state => ih false state
    · exact speaks_pure _

theorem speaks_members {member : String → σ → Reader σ}
    (h : ∀ name state, Speaks words (member name state)) (state : σ) :
    Speaks words (members member state) :=
  fun input => speaks_membersUpTo h input.length true state input

/-- A move that refuses nothing, or needs no words to do so. -/
def Move.Mute (move : Move) : Prop :=
  ∀ cause, move = .wrong cause ∨ move = .wrongBefore cause → cause.words = []

theorem mute_next (spot : Spot) (stack : List Bracket) : (Move.next spot stack).Mute := by
  simp [Move.Mute]

theorem mute_over : Move.over.Mute := by simp [Move.Mute]

theorem mute_complete (stack : List Bracket) : (complete stack).Mute := by
  cases stack <;> simp [complete, Move.Mute]

theorem mute_wrong {cause : Cause} (h : cause.words = []) : (Move.wrong cause).Mute := by
  simpa [Move.Mute] using h

theorem mute_stepValue (stack : List Bracket) (b : UInt8) : (stepValue stack b).Mute := by
  fun_cases stepValue stack b <;> first | exact mute_next _ _ | exact mute_wrong rfl

theorem mute_stepName (stack : List Bracket) (b : UInt8) : (stepName stack b).Mute := by
  fun_cases stepName stack b <;> first | exact mute_next _ _ | exact mute_wrong rfl

theorem mute_stepOpened (stack : List Bracket) (b : UInt8) : (stepOpened stack b).Mute := by
  fun_cases stepOpened stack b with
  | case1 => exact mute_next _ _
  | case2 | case4 => exact mute_complete _
  | case3 => exact mute_stepValue _ _
  | case5 => exact mute_stepName _ _
  | case6 => exact mute_over

theorem mute_stepEnded (stack : List Bracket) (b : UInt8) : (stepEnded stack b).Mute := by
  fun_cases stepEnded stack b with
  | case1 => exact mute_over
  | case4 | case8 => exact mute_complete _
  | case5 | case9 => exact mute_wrong rfl
  | _ => exact mute_next _ _

theorem mute_stepNumber (spot : NumberSpot) (stack : List Bracket) (b : UInt8) :
    (stepNumber spot stack b).Mute := by
  fun_cases stepNumber spot stack b with
  | case1 => exact mute_next _ _
  | case2 | case5 => exact mute_wrong rfl
  | case3 | case4 => exact mute_stepEnded _ _

theorem mute_stepText (isName : Bool) (stack : List Bracket) (b : UInt8) :
    (stepText isName stack b).Mute := by
  fun_cases stepText isName stack b with
  | case2 => exact mute_complete _
  | case4 => simp [Move.Mute, Cause.words]
  | _ => exact mute_next _ _

theorem mute_step (spot : Spot) (stack : List Bracket) (b : UInt8) : (step spot stack b).Mute := by
  fun_cases step spot stack b with
  | case1 => exact mute_stepValue _ _
  | case2 => exact mute_stepOpened _ _
  | case3 | case8 => exact mute_stepEnded _ _
  | case4 => exact mute_stepName _ _
  | case7 | case11 | case15 | case18 => exact mute_wrong rfl
  | case9 => exact mute_complete _
  | case12 => exact mute_stepText _ _ _
  | case19 => exact mute_stepNumber _ _ _
  | _ => exact mute_next _ _

theorem words_endCause {spot : Spot} {stack : List Bracket} {cause : Cause} :
    endCause? spot stack = some cause → cause.words = [] := by
  have hbehind : endBehind stack = some cause → cause.words = [] := by
    cases stack with
    | nil => nofun
    | cons bracket outer => cases bracket <;> rintro ⟨⟩ <;> rfl
  fun_cases endCause? spot stack <;> first | exact hbehind | (rintro ⟨⟩; rfl)

theorem words_skipFrom {spot : Spot} {stack : List Bracket} {input : Bytes} {fault : Fault} :
    skipFrom spot stack input = .error fault → fault.cause.words = [] := by
  fun_induction skipFrom spot stack input with
  | case1 spot stack cause hend =>
    rintro ⟨⟩
    exact words_endCause hend
  | case2 => nofun
  | case3 _ _ _ _ _ _ _ ih => exact ih
  | case4 | case5 => nofun
  | case6 spot stack b rest cause hstep =>
    rintro ⟨⟩
    exact mute_step spot stack b cause (.inl hstep)
  | case7 spot stack b rest cause hstep =>
    rintro ⟨⟩
    exact mute_step spot stack b cause (.inr hstep)

theorem speaks_skipValue : Speaks words skipValue := by
  intro input fault hfault
  rw [words_skipFrom hfault]
  exact List.nil_subset _

end Reader
end SyncedConfig.Json
