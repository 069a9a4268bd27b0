import SyncedConfig.Json.Reader.Brackets
import SyncedConfig.Proofs.Spelling.Text

/-!
# Lists and objects are read however they are written

The items between brackets are read one by one, whatever blanks stand around them, if each of
them is read from its octets. Members are read into a state that the members before them left.
-/
namespace SyncedConfig.Json.Reader

variable {α σ : Type}

theorem endList_close {blanks : Bytes} (hb : Blank blanks) (rest : Bytes) :
    endList (blanks ++ Ascii.closeList :: rest) = .ok ((), rest) := by
  rw [endList, bind_of_ok (skipBlanks_cons hb (by decide) rest), bind_of_ok (peek?_cons _ _)]
  rfl

theorem endObject_close {blanks : Bytes} (hb : Blank blanks) (rest : Bytes) :
    endObject (blanks ++ Ascii.closeObject :: rest) = .ok ((), rest) := by
  rw [endObject, bind_of_ok (skipBlanks_cons hb (by decide) rest), bind_of_ok (peek?_cons _ _)]
  rfl

theorem settle_of_ok {leave : Bytes → Bytes} {body : Reader α} {input rest : Bytes} {a : α}
    (h : body input = .ok (a, rest)) : settle leave body input = .ok (a, rest) := by
  rw [settle, h]

theorem inList_of_ok {body : Reader α} {input blanks rest : Bytes} {a : α} (hb : Blank blanks)
    (h : body input = .ok (a, blanks ++ Ascii.closeList :: rest)) :
    inList body (Ascii.openList :: input) = .ok (a, rest) := by
  rw [inList, bind_of_ok (advance_cons _ _), bind_of_ok (settle_of_ok h),
    bind_of_ok (endList_close hb rest)]
  rfl

theorem inObject_of_ok {body : Reader α} {input blanks rest : Bytes} {a : α} (hb : Blank blanks)
    (h : body input = .ok (a, blanks ++ Ascii.closeObject :: rest)) :
    inObject body (Ascii.openObject :: input) = .ok (a, rest) := by
  rw [inObject, bind_of_ok (advance_cons _ _), bind_of_ok (settle_of_ok h),
    bind_of_ok (endObject_close hb rest)]
  rfl

theorem nextItem_close {blanks : Bytes} (hb : Blank blanks) (isFirst : Bool) (rest : Bytes) :
    nextItem isFirst (blanks ++ Ascii.closeList :: rest) =
      .ok (false, Ascii.closeList :: rest) := by
  rw [nextItem, bind_of_ok (skipBlanks_cons hb (by decide) rest), bind_of_ok (peek?_cons _ _)]
  rfl

theorem nextItem_separator {lead : Bytes} (hlead : Blank lead) {b : UInt8}
    (hb : isBlank b = false) (hclose : b ≠ Ascii.closeList) (isFirst : Bool) (rest : Bytes) :
    nextItem isFirst (separator isFirst ++ (lead ++ b :: rest)) = .ok (true, b :: rest) := by
  cases isFirst with
  | true =>
    rw [nextItem, separator, if_pos rfl, List.nil_append,
      bind_of_ok (skipBlanks_cons hlead hb rest), bind_of_ok (peek?_cons _ _)]
    simp only [hclose, ↓reduceIte, pure_apply]
  | false =>
    rw [nextItem, separator, if_neg (by decide), List.singleton_append,
      bind_of_ok (skipBlanks_comma _), bind_of_ok (peek?_cons _ _)]
    simp only [show Ascii.comma ≠ Ascii.closeList by decide, ↓reduceIte, Bool.false_eq_true]
    rw [bind_of_ok (advance_cons _ _), bind_of_ok (skipBlanks_cons hlead hb rest),
      bind_of_ok (peek?_cons _ _)]
    simp only [hclose, ↓reduceIte, pure_apply]

theorem colon_cons {blanks : Bytes} (hb : Blank blanks) (rest : Bytes) :
    colon (blanks ++ Ascii.colon :: rest) = .ok ((), rest) := by
  rw [colon, bind_of_ok (skipBlanks_cons hb (by decide) rest), bind_of_ok (peek?_cons _ _)]
  rfl

theorem nextMember_close {blanks : Bytes} (hb : Blank blanks) (isFirst : Bool) (rest : Bytes) :
    nextMember isFirst (blanks ++ Ascii.closeObject :: rest) =
      .ok (false, Ascii.closeObject :: rest) := by
  rw [nextMember, bind_of_ok (skipBlanks_cons hb (by decide) rest), bind_of_ok (peek?_cons _ _)]
  rfl

theorem nextItem_blanks {before : Bytes} (hb : Blank before) (isFirst : Bool) (input : Bytes) :
    nextItem isFirst (before ++ input) = nextItem isFirst input := by
  have hskip : skipBlanks (before ++ input) = skipBlanks input := by
    rw [skipBlanks, dropBlanks_append hb, skipBlanks]
  simp only [nextItem, bind, StateT.bind, hskip]

theorem nextMember_blanks {before : Bytes} (hb : Blank before) (isFirst : Bool) (input : Bytes) :
    nextMember isFirst (before ++ input) = nextMember isFirst input := by
  have hskip : skipBlanks (before ++ input) = skipBlanks input := by
    rw [skipBlanks, dropBlanks_append hb, skipBlanks]
  simp only [nextMember, bind, StateT.bind, hskip]

theorem nextItem_opens {before behind item : Bytes} (hbefore : Blank before)
    (hbehind : Blank behind) (h : Opens item) (isFirst : Bool) (rest : Bytes) :
    nextItem isFirst (before ++ (separator isFirst ++ (behind ++ (item ++ rest)))) =
      .ok (true, item ++ rest) := by
  obtain ⟨b, item, rfl, hblank, hclose, -⟩ := h
  rw [nextItem_blanks hbefore]
  exact nextItem_separator hbehind hblank hclose isFirst (item ++ rest)

theorem nextMember_opens {before behind name : Bytes} {s : String} (hbefore : Blank before)
    (hbehind : Blank behind) (h : SpellsText s name) (isFirst : Bool) (rest : Bytes) :
    nextMember isFirst (before ++ (separator isFirst ++ (behind ++ (name ++ rest)))) =
      .ok (true, name ++ rest) := by
  obtain ⟨name, rfl⟩ := List.head?_eq_some_iff.1 h.head?
  rw [nextMember_blanks hbefore, List.cons_append]
  have hquote := skipBlanks_cons hbehind (show isBlank Ascii.quote = false by decide) (name ++ rest)
  cases isFirst with
  | true =>
    rw [nextMember, separator, if_pos rfl, List.nil_append, bind_of_ok hquote,
      bind_of_ok (peek?_cons _ _)]
    rfl
  | false =>
    rw [nextMember, separator, if_neg (by decide), List.singleton_append,
      bind_of_ok (skipBlanks_comma _), bind_of_ok (peek?_cons _ _)]
    simp only [show Ascii.comma ≠ Ascii.closeObject by decide, ↓reduceIte, Bool.false_eq_true]
    rw [bind_of_ok (advance_cons _ _), bind_of_ok hquote, bind_of_ok (peek?_cons _ _)]
    rfl

section items

variable {item : Reader α} {as : List α} {items : List Bytes} {row : Bytes}

/-- The octets of an item are told from a closing bracket, and are read. -/
def ReadsItem (item : Reader α) (a : α) (octets : Bytes) : Prop :=
  Opens octets ∧ Reads item octets a

theorem itemsUpTo_row {isFirst : Bool} (h : IsRow isFirst items row)
    (hread : List.Forall₂ (ReadsItem item) as items) {n : Nat} (hn : items.length < n)
    (rest : Bytes) :
    itemsUpTo item n isFirst (row ++ Ascii.closeList :: rest) =
      .ok (as, Ascii.closeList :: rest) := by
  induction h generalizing as n with
  | nil hblanks =>
    obtain rfl := List.forall₂_nil_right_iff.1 hread
    obtain ⟨n, rfl⟩ := Nat.exists_eq_succ_of_ne_zero (Nat.ne_of_gt hn)
    rw [itemsUpTo, bind_of_ok (nextItem_close hblanks _ rest)]
    rfl
  | @cons isFirst before behind octets row items hbefore hbehind hrow ih =>
    obtain ⟨a, as, ⟨hopens, ha⟩, has, rfl⟩ := List.forall₂_cons_right_iff.1 hread
    obtain ⟨n, rfl⟩ := Nat.exists_eq_succ_of_ne_zero (Nat.ne_of_gt (Nat.zero_lt_of_lt hn))
    have hends : Ends (row ++ Ascii.closeList :: rest) := hrow.ends (ends_cons _ (by simp))
    have hnext := nextItem_opens hbefore hbehind hopens isFirst (row ++ Ascii.closeList :: rest)
    simp only [List.append_assoc]
    rw [itemsUpTo, bind_of_ok hnext]
    simp only [↓reduceIte]
    rw [bind_of_ok (ha.apply hends), bind_of_ok (ih has (Nat.lt_of_succ_lt_succ hn))]
    rfl

/-- The bound on the number of items is never met. -/
theorem items_row (h : IsRow true items row) (hread : List.Forall₂ (ReadsItem item) as items)
    (rest : Bytes) :
    Reader.items item (row ++ Ascii.closeList :: rest) = .ok (as, Ascii.closeList :: rest) := by
  have hopens : ∀ octets ∈ items, Opens octets := by
    intro octets hoctets
    obtain ⟨a, -, hopens, -⟩ := exists_of_mem_items hread hoctets
    exact hopens
  have hlength := h.length_le hopens
  refine itemsUpTo_row h hread ?_ rest
  simp only [List.length_append, List.length_cons]
  omega

end items

theorem reads_list {items : List Bytes} {octets : Bytes} {choose : UInt8 → Reader α}
    {body : Reader α} {a : α} (h : IsList items octets)
    (hchoose : choose Ascii.openList = inList body)
    (hbody : ∀ row rest, IsRow true items row → ∃ left, Blank left ∧
      body (row ++ Ascii.closeList :: rest) = .ok (a, left ++ Ascii.closeList :: rest)) :
    Reads (valueStart >>= choose) octets a := by
  intro blanks rest hb _
  obtain ⟨row, hrow, rfl⟩ := h
  obtain ⟨left, hleft, h⟩ := hbody row rest hrow
  rw [List.cons_append, bind_of_ok (valueStart_cons hb (by decide) _), hchoose]
  simp only [List.append_assoc, List.singleton_append]
  exact inList_of_ok hleft h

theorem reads_colon {reader : Reader α} {value behind : Bytes} {a : α} (hb : Blank behind)
    (h : Reads reader value a) :
    Reads (do colon; reader) (Ascii.colon :: (behind ++ value)) a := by
  intro blanks rest hblanks hrest
  rw [List.cons_append, List.append_assoc, bind_of_ok (colon_cons hblanks _)]
  exact h behind rest hb hrest

/-- The reader takes a colon and these octets, with blanks around the colon. -/
def ReadsMember (reader : Reader α) (value : Bytes) (a : α) : Prop :=
  ∀ behind, Blank behind → Reads reader (Ascii.colon :: (behind ++ value)) a

/-- Members that take a state to another one, each being read into what those before it left. -/
inductive Takes (member : String → σ → Reader σ) : List (String × Bytes) → σ → σ → Prop
  | nil (state : σ) : Takes member [] state state
  | cons {name : String} {value : Bytes} {members : List (String × Bytes)} {state next last : σ}
      (head : ReadsMember (member name state) value next) (tail : Takes member members next last) :
      Takes member ((name, value) :: members) state last

section members

variable {member : String → σ → Reader σ} {members : List (String × Bytes)} {items : List Bytes}
  {row : Bytes} {state last : σ}

theorem membersUpTo_row {isFirst : Bool} (h : IsRow isFirst items row)
    (hitems : List.Forall₂ (fun m item => ∃ name, SpellsText m.1 name ∧ IsMember name m.2 item)
      members items)
    (htakes : Takes member members state last) {n : Nat} (hn : items.length < n) (rest : Bytes) :
    membersUpTo member n isFirst state (row ++ Ascii.closeObject :: rest) =
      .ok (last, Ascii.closeObject :: rest) := by
  induction h generalizing members state n with
  | nil hblanks =>
    obtain rfl := List.forall₂_nil_right_iff.1 hitems
    cases htakes
    obtain ⟨n, rfl⟩ := Nat.exists_eq_succ_of_ne_zero (Nat.ne_of_gt hn)
    rw [membersUpTo, bind_of_ok (nextMember_close hblanks _ rest)]
    rfl
  | @cons isFirst before behind item row items hbefore hbehind hrow ih =>
    obtain ⟨m, members, ⟨name, hname, between, gap, hbetween, hgap, rfl⟩, htail, rfl⟩ :=
      List.forall₂_cons_right_iff.1 hitems
    obtain ⟨n, rfl⟩ := Nat.exists_eq_succ_of_ne_zero (Nat.ne_of_gt (Nat.zero_lt_of_lt hn))
    cases htakes with
    | @cons _ value _ _ next _ head tail =>
    have hends : Ends (row ++ Ascii.closeObject :: rest) := hrow.ends (ends_cons _ (by simp))
    have hvalue := head gap hgap between _ hbetween hends
    have hnext := nextMember_opens hbefore hbehind hname isFirst
      (between ++ (Ascii.colon :: (gap ++ value) ++ (row ++ Ascii.closeObject :: rest)))
    simp only [List.append_assoc, List.cons_append] at hnext hvalue ⊢
    rw [membersUpTo, bind_of_ok hnext]
    simp only [↓reduceIte]
    rw [bind_of_ok (textToken_spelled hname _), bind_of_ok hvalue,
      ih htail tail (Nat.lt_of_succ_lt_succ hn)]

theorem members_row (h : IsRow true items row)
    (hitems : List.Forall₂ (fun m item => ∃ name, SpellsText m.1 name ∧ IsMember name m.2 item)
      members items)
    (htakes : Takes member members state last) (rest : Bytes) :
    Reader.members member state (row ++ Ascii.closeObject :: rest) =
      .ok (last, Ascii.closeObject :: rest) := by
  have hopens : ∀ item ∈ items, Opens item := by
    intro item hitem
    obtain ⟨m, -, name, hname, before, behind, -, -, rfl⟩ := exists_of_mem_items hitems hitem
    exact (opens_of_head? hname.head? (by decide)).append _
  have hlength := h.length_le hopens
  refine membersUpTo_row h hitems htakes ?_ rest
  simp only [List.length_append, List.length_cons]
  omega

end members

theorem reads_object {members : List (String × Bytes)} {octets : Bytes} {choose : UInt8 → Reader α}
    {member : String → σ → Reader σ} {state last : σ} {body : Reader α} {a : α}
    (h : IsObject members octets) (htakes : Takes member members state last)
    (hchoose : choose Ascii.openObject = inObject body)
    (hbody : ∀ input rest, Reader.members member state input = .ok (last, rest) →
      body input = .ok (a, rest)) :
    Reads (valueStart >>= choose) octets a := by
  intro blanks rest hb _
  obtain ⟨items, row, hitems, hrow, rfl⟩ := h
  have hmembers := members_row hrow hitems htakes rest
  rw [List.cons_append, bind_of_ok (valueStart_cons hb (by decide) _), hchoose]
  simp only [List.append_assoc, List.singleton_append]
  exact inObject_of_ok blank_nil (hbody _ _ hmembers)

end SyncedConfig.Json.Reader
