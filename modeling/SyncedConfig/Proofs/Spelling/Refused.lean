import SyncedConfig.Proofs.Spelling.Records

/-!
# One refused value refuses the whole

A value that is refused wherever it stands is refused inside brackets too, in whatever they hold
besides. Of integers, those that lie outside the bounds are refused, however large they are.
-/
namespace SyncedConfig

open Json (IsList IsObject IsRow IsMember Opens SpellsText)
open Json.Reader

namespace Json.Reader

variable {α β σ : Type}

def Fails (reader : Reader α) (input : Bytes) : Prop := ∃ fault, reader input = .error fault

/-- The reader refuses these octets wherever they stand for a value. -/
def Refuses (reader : Reader α) (octets : Bytes) : Prop :=
  ∀ blanks rest, Blank blanks → Ends rest → Fails reader (blanks ++ (octets ++ rest))

variable {reader : Reader α} {next : α → Reader β} {input rest octets : Bytes} {a : α}

theorem Fails.bind (h : Fails reader input) (next : α → Reader β) :
    Fails (reader >>= next) input := by
  obtain ⟨fault, h⟩ := h
  exact ⟨fault, by simp only [Bind.bind, StateT.bind, h, Except.bind]⟩

theorem fails_bind_of_ok (h : reader input = .ok (a, rest)) (hnext : Fails (next a) rest) :
    Fails (reader >>= next) input := by
  rw [Fails, bind_of_ok h]
  exact hnext

theorem fails_fail (cause : Cause) (input : Bytes) : Fails (fail cause : Reader α) input :=
  ⟨_, rfl⟩

theorem fails_failNext (cause : Cause) (input : Bytes) : Fails (failNext cause : Reader α) input :=
  ⟨_, rfl⟩

theorem fails_failWhole (cause : Cause) (input : Bytes) :
    Fails (failWhole cause : Reader α) input := ⟨_, rfl⟩

theorem Refuses.apply (h : Refuses reader octets) (hrest : Ends rest) :
    Fails reader (octets ++ rest) := h [] rest blank_nil hrest

theorem Refuses.bind (h : Refuses reader octets) (next : α → Reader β) :
    Refuses (reader >>= next) octets :=
  fun blanks rest hb hrest => (h blanks rest hb hrest).bind next

theorem Refuses.decode_padded {before behind : Bytes} (h : Refuses reader octets)
    (hbefore : Blank before) (hbehind : Blank behind) :
    ∃ e, reader.decode (before ++ (octets ++ behind)) = .error e := by
  have hends : Ends behind := by
    rw [← List.append_nil behind]
    exact Ends.append hbehind ends_nil
  obtain ⟨fault, hwhole⟩ : Fails reader.whole (before ++ (octets ++ behind)) :=
    (h before behind hbefore hends).bind _
  rw [Reader.decode, hwhole]
  exact ⟨_, rfl⟩

/-- An integer is refused unless it lies between the bounds, also if it is too large to be read as
an integer at all. -/
theorem refuses_integer {n least greatest : Int} (h : n < least ∨ greatest < n)
    (expected : String) :
    Refuses (integer least greatest expected) (Utf8.encode (Decimal.ofInt n)) := by
  intro blanks rest hb hrest
  obtain ⟨b, t, ht, hfirst⟩ := octets_integer .compact 0 n
  have hblank : isBlank b = false := by
    rcases hfirst with rfl | hdigit
    · decide
    · exact isBlank_of_isDigit hdigit
  have hstart : (b = Ascii.minus || Ascii.isDigit b) = true := by simpa using hfirst
  have hoctets : Utf8.encode (Decimal.ofInt n) = b :: t := ht
  rw [hoctets, List.cons_append]
  refine fails_bind_of_ok (valueStart_cons hb hblank _) ?_
  simp only [hstart, ↓reduceIte]
  rw [← List.cons_append, ← hoctets]
  -- beyond 64 bits it does not matter whether a float is read or nothing, both are refused
  cases hnumber : number (Utf8.encode (Decimal.ofInt n) ++ rest) with
  | error fault => exact Fails.bind ⟨fault, hnumber⟩ _
  | ok result =>
    obtain ⟨found, more⟩ := result
    refine fails_bind_of_ok hnumber ?_
    cases found with
    | float x => exact fails_fail _ _
    | integer i =>
      by_cases hfits : -0x8000000000000000 ≤ n ∧ n ≤ 0xffffffffffffffff
      · rw [number_ofInt hfits.1 hfits.2 hrest] at hnumber
        cases hnumber
        have hout : ¬ (least ≤ n ∧ n ≤ greatest) := by omega
        simp only [hout, ↓reduceIte]
        exact fails_fail _ _
      · exact absurd hnumber (number_ne_integer (by omega) hrest i more)

theorem Fails.settle {body : Reader α} (h : Fails body input) (leave : Bytes → Bytes) :
    Fails (settle leave body) input := by
  obtain ⟨fault, h⟩ := h
  unfold Fails Reader.settle
  rw [h]
  cases fault <;> exact ⟨_, rfl⟩

theorem refuses_list {items : List Bytes} {choose : UInt8 → Reader α} {body : Reader α}
    (h : IsList items octets) (hchoose : choose Ascii.openList = inList body)
    (hbody : ∀ row rest, IsRow true items row → Fails body (row ++ Ascii.closeList :: rest)) :
    Refuses (valueStart >>= choose) octets := by
  intro blanks rest hb _
  obtain ⟨row, hrow, rfl⟩ := h
  rw [List.cons_append]
  refine fails_bind_of_ok (valueStart_cons hb (by decide) _) ?_
  rw [hchoose]
  simp only [List.append_assoc, List.singleton_append]
  exact fails_bind_of_ok (advance_cons _ _) (((hbody row rest hrow).settle _).bind _)

theorem fails_itemsUpTo {item : Reader α} {as : List α} {before behind : List Bytes}
    {isFirst : Bool} {row : Bytes} (h : IsRow isFirst (before ++ octets :: behind) row)
    (hread : List.Forall₂ (ReadsItem item) as before) (hopens : Opens octets)
    (hrefuses : Refuses item octets) (hrest : Ends rest) (n : Nat) :
    Fails (itemsUpTo item n isFirst) (row ++ rest) := by
  induction hread generalizing isFirst row n with
  | nil =>
    cases h with
    | @cons _ first gap _ row _ hfirst hgap hrow =>
    cases n with
    | zero => exact fails_failNext _ _
    | succ n =>
      have hnext := nextItem_opens hfirst hgap hopens isFirst (row ++ rest)
      simp only [List.append_assoc]
      refine fails_bind_of_ok hnext ?_
      simp only [↓reduceIte]
      exact (hrefuses.apply (hrow.ends hrest)).bind _
  | cons ha _ ih =>
    cases h with
    | @cons _ first gap _ row _ hfirst hgap hrow =>
    cases n with
    | zero => exact fails_failNext _ _
    | succ n =>
      have hnext := nextItem_opens hfirst hgap ha.1 isFirst (row ++ rest)
      simp only [List.append_assoc]
      refine fails_bind_of_ok hnext ?_
      simp only [↓reduceIte]
      exact fails_bind_of_ok (ha.2.apply (hrow.ends hrest)) ((ih hrow n).bind _)

theorem refuses_object {members : List (String × Bytes)} {choose : UInt8 → Reader α}
    {body : Reader α} (h : IsObject members octets)
    (hchoose : choose Ascii.openObject = inObject body)
    (hbody : ∀ items row rest,
      List.Forall₂ (fun m item => ∃ name, SpellsText m.1 name ∧ IsMember name m.2 item) members
        items →
      IsRow true items row → Fails body (row ++ Ascii.closeObject :: rest)) :
    Refuses (valueStart >>= choose) octets := by
  intro blanks rest hb _
  obtain ⟨items, row, hitems, hrow, rfl⟩ := h
  rw [List.cons_append]
  refine fails_bind_of_ok (valueStart_cons hb (by decide) _) ?_
  rw [hchoose]
  simp only [List.append_assoc, List.singleton_append]
  exact fails_bind_of_ok (advance_cons _ _) (((hbody items row rest hitems hrow).settle _).bind _)

def RefusesMember (reader : Reader α) (value : Bytes) : Prop :=
  ∀ behind, Blank behind → Refuses reader (Ascii.colon :: (behind ++ value))

theorem refuses_colon {value behind : Bytes} (hb : Blank behind) (h : Refuses reader value) :
    Refuses (do colon; reader) (Ascii.colon :: (behind ++ value)) := by
  intro blanks rest hblanks hrest
  rw [List.cons_append, List.append_assoc]
  exact fails_bind_of_ok (colon_cons hblanks _) (h behind rest hb hrest)

theorem fails_membersUpTo {member : String → σ → Reader σ} {before behind : List (String × Bytes)}
    {name : String} {value : Bytes} {state last : σ} {isFirst : Bool} {items : List Bytes}
    {row : Bytes} (h : IsRow isFirst items row)
    (hitems : List.Forall₂ (fun m item => ∃ name, SpellsText m.1 name ∧ IsMember name m.2 item)
      (before ++ (name, value) :: behind) items)
    (htakes : Takes member before state last) (hrefuses : RefusesMember (member name last) value)
    (hrest : Ends rest) (n : Nat) :
    Fails (membersUpTo member n isFirst state) (row ++ rest) := by
  induction htakes generalizing isFirst items row n with
  | nil state =>
    obtain ⟨item, items, ⟨quoted, hquoted, between, gap, hbetween, hgap, rfl⟩, -, rfl⟩ :=
      List.forall₂_cons_left_iff.1 hitems
    cases h with
    | @cons _ first lead _ row _ hfirst hlead hrow =>
    cases n with
    | zero => exact fails_failNext _ _
    | succ n =>
      have hnext := nextMember_opens hfirst hlead hquoted isFirst
        (between ++ (Ascii.colon :: (gap ++ value) ++ (row ++ rest)))
      have hvalue := hrefuses gap hgap between (row ++ rest) hbetween (hrow.ends hrest)
      simp only [List.append_assoc, List.cons_append] at hnext hvalue ⊢
      refine fails_bind_of_ok hnext ?_
      simp only [↓reduceIte]
      exact fails_bind_of_ok (textToken_spelled hquoted _) (hvalue.bind _)
  | @cons other octets before state next last head _ ih =>
    obtain ⟨item, items, ⟨quoted, hquoted, between, gap, hbetween, hgap, rfl⟩, htail, rfl⟩ :=
      List.forall₂_cons_left_iff.1 hitems
    cases h with
    | @cons _ first lead _ row _ hfirst hlead hrow =>
    cases n with
    | zero => exact fails_failNext _ _
    | succ n =>
      have hnext := nextMember_opens hfirst hlead hquoted isFirst
        (between ++ (Ascii.colon :: (gap ++ octets) ++ (row ++ rest)))
      have hvalue := head gap hgap between (row ++ rest) hbetween (hrow.ends hrest)
      simp only [List.append_assoc, List.cons_append] at hnext hvalue ⊢
      refine fails_bind_of_ok hnext ?_
      simp only [↓reduceIte]
      exact fails_bind_of_ok (textToken_spelled hquoted _)
        (fails_bind_of_ok hvalue (ih hrow htail hrefuses n))

end Json.Reader

namespace Schema

variable {α : Type}

theorem refuses_tagged {known : List String} (alone : String → Json.Reader α)
    {payload : String → Json.Reader α} {tag : String} {value octets : Bytes}
    (hobject : IsObject [(tag, value)] octets) (htag : tag ∈ known)
    (h : Refuses (payload tag) value) : Refuses (tagged known alone payload) octets := by
  intro blanks rest hb _
  obtain ⟨gap, more, finish, hgap, hmore, -, htagged⟩ :=
    tagged_spelled alone payload hobject htag hb rest
  rw [Fails, htagged]
  exact (h gap more hgap hmore).bind finish

/-- A value that does not start like a null is refused where a null may stand, too. -/
theorem refuses_optional {reader : Json.Reader α} {octets : Bytes} (hopens : Opens octets)
    (hne : octets.head? ≠ some (Ascii.octet 'n')) (h : Refuses reader octets) :
    Refuses (Json.Reader.optional reader) octets := by
  obtain ⟨b, octets, rfl, hblank, -⟩ := hopens
  intro blanks rest hb hrest
  have hvalue := h.apply hrest
  rw [List.head?_cons] at hne
  rw [List.cons_append] at hvalue ⊢
  refine fails_bind_of_ok (skipBlanks_cons hb hblank _) (fails_bind_of_ok (peek?_cons _ _) ?_)
  simp only [hne, ↓reduceIte]
  exact hvalue.bind _

variable {σ τ : Type} {fields : Fields σ τ} {outline : Outline} {view : α → σ}
  {make? : σ → Option α} {make_view : ∀ a, make? (view a) = some a} {values : σ} {octets : Bytes}

theorem fails_assemble (hmake : make? values = none) (input : Bytes) :
    Fails (assemble outline make? values) input := by
  rw [assemble, hmake]
  exact fails_failWhole _ _

theorem refuses_inOrder {items : List Bytes} (hmake : make? values = none)
    (hitems : fields.ReadsInOrder values items) (hlist : IsList items octets) :
    Refuses (Schema.record outline fields view make? make_view).read octets := by
  rw [read, recordWith]
  refine refuses_list hlist rfl fun row rest hrow => ?_
  obtain ⟨left, -, hread⟩ :=
    Fields.readRow_of_reads outline fields.names.length fields hitems 0 hrow
  exact fails_bind_of_ok hread (fails_assemble hmake _)

theorem refuses_named {members : List (String × Bytes)} (h : fields.WellFormed)
    (hmake : make? values = none)
    (hmembers : fields.Named outline (fields.ReadsAs values) values members)
    (hobject : IsObject members octets) :
    Refuses (Schema.record outline fields view make? make_view).read octets := by
  obtain ⟨htakes, hcollect⟩ := takes_named h hmembers
  rw [read, recordWith]
  refine refuses_object hobject rfl fun items row rest hitems hrow => ?_
  have hread := members_row hrow hitems htakes rest
  rw [bind_assoc]
  exact fails_bind_of_ok hread (fails_bind_of_ok (hcollect _) (fails_assemble hmake _))

end Schema
end SyncedConfig
