import SyncedConfig.Json.Reader.Scalar
import SyncedConfig.Proofs.Spelling.Grammar

/-!
# What a reader has taken

Octets that write a value are read, and here is the converse: what a reader takes off some data is
blanks and then octets that write the value. So a reader that succeeds has seen nothing but what
the grammar allows.
-/
namespace SyncedConfig.Json.Reader

variable {α β : Type}

/-- The reader takes nothing but blanks and octets that write the value that it reads. -/
def TakesOnly (reader : Reader α) (writes : α → Bytes → Prop) : Prop :=
  ∀ input a rest, reader input = .ok (a, rest) →
    ∃ blanks octets, Blank blanks ∧ input = blanks ++ (octets ++ rest) ∧ writes a octets

variable {reader : Reader α} {next : α → Reader β} {input rest : Bytes} {a : α} {b : β}

theorem exists_of_bind (h : (reader >>= next) input = .ok (b, rest)) :
    ∃ a left, reader input = .ok (a, left) ∧ next a left = .ok (b, rest) := by
  cases hread : reader input with
  | error fault =>
    simp only [Bind.bind, StateT.bind, hread, Except.bind] at h
    cases h
  | ok result =>
    obtain ⟨a, left⟩ := result
    rw [bind_of_ok hread] at h
    exact ⟨a, left, rfl, h⟩

theorem eq_of_pure {a' : α} (h : (pure a : Reader α) input = .ok (a', rest)) :
    a = a' ∧ input = rest := by
  cases h
  exact ⟨rfl, rfl⟩

theorem TakesOnly.map {writes : α → Bytes → Prop} {written : β → Bytes → Prop}
    (h : TakesOnly reader writes) (f : α → β)
    (hf : ∀ a octets, writes a octets → written (f a) octets) :
    TakesOnly (do return f (← reader)) written := by
  intro input b rest hread
  obtain ⟨a, left, ha, hpure⟩ := exists_of_bind hread
  obtain ⟨rfl, rfl⟩ := eq_of_pure hpure
  obtain ⟨blanks, octets, hblanks, rfl, hwrites⟩ := h input a left ha
  exact ⟨blanks, octets, hblanks, rfl, hf a octets hwrites⟩

theorem blank_takeWhile (input : Bytes) : Blank (input.takeWhile isBlank) :=
  List.all_eq_true.1 (List.all_takeWhile ..)

/-- What a step sees that looks behind blanks, and what it is given. -/
theorem exists_of_peek {next : Option UInt8 → Reader β}
    (h : (skipBlanks >>= fun _ => peek? >>= next) input = .ok (b, rest)) :
    ∃ blanks left, Blank blanks ∧ input = blanks ++ left ∧
      (∀ b, left.head? = some b → isBlank b = false) ∧ next left.head? left = .ok (b, rest) := by
  have happly : (skipBlanks >>= fun _ => peek? >>= next) input =
      next (dropBlanks input).head? (dropBlanks input) := rfl
  rw [happly] at h
  refine ⟨input.takeWhile isBlank, dropBlanks input, blank_takeWhile input,
    (List.takeWhile_append_dropWhile ..).symm, fun b hb => ?_, h⟩
  have hhead := List.head?_dropWhile_not isBlank input
  rw [dropBlanks] at hb
  rw [hb] at hhead
  simpa using hhead

theorem exists_of_valueStart {b : UInt8} (h : valueStart input = .ok (b, rest)) :
    ∃ blanks left, Blank blanks ∧ input = blanks ++ b :: left ∧ isBlank b = false ∧
      rest = b :: left := by
  obtain ⟨blanks, left, hblanks, rfl, hfirst, h⟩ := exists_of_peek h
  cases left with
  | nil => cases h
  | cons b' left =>
    cases h
    exact ⟨blanks, left, hblanks, rfl, hfirst b rfl, rfl⟩

theorem takesOnly_of_start {choose : UInt8 → Reader α} {writes : α → Bytes → Prop}
    (h : ∀ b left a rest, isBlank b = false → choose b (b :: left) = .ok (a, rest) →
      ∃ octets, b :: left = octets ++ rest ∧ writes a octets) :
    TakesOnly (valueStart >>= choose) writes := by
  intro input a rest hread
  obtain ⟨b, left, hstart, hchoose⟩ := exists_of_bind hread
  obtain ⟨blanks, left, hblanks, rfl, hb, rfl⟩ := exists_of_valueStart hstart
  obtain ⟨octets, hoctets, hwrites⟩ := h b left a rest hb hchoose
  exact ⟨blanks, octets, hblanks, by rw [hoctets], hwrites⟩

/-- The octets are the data but for blanks around them. -/
def IsPadded (octets data : Bytes) : Prop :=
  ∃ before behind, Blank before ∧ Blank behind ∧ data = before ++ (octets ++ behind)

/-- Data that is read as a whole is a value with blanks around it. -/
theorem TakesOnly.decode {writes : α → Bytes → Prop} (h : TakesOnly reader writes) {data : Bytes}
    (hdecode : reader.decode data = .ok a) : ∃ octets, IsPadded octets data ∧ writes a octets := by
  rw [Reader.decode] at hdecode
  cases hwhole : reader.whole data with
  | error fault =>
    rw [hwhole] at hdecode
    cases hdecode
  | ok result =>
    obtain ⟨a', rest⟩ := result
    rw [hwhole] at hdecode
    obtain rfl := Except.ok.inj hdecode
    obtain ⟨a, left, hread, hend⟩ := exists_of_bind hwhole
    obtain ⟨behind, left, hbehind, rfl, -, hend⟩ := exists_of_peek hend
    cases left with
    | cons => cases hend
    | nil =>
      obtain ⟨rfl, -⟩ := eq_of_pure hend
      obtain ⟨before, octets, hbefore, rfl, hwrites⟩ := h data a _ hread
      exact ⟨octets, ⟨before, behind, hbefore, hbehind, by rw [List.append_nil]⟩, hwrites⟩

theorem eq_of_word {letters : Bytes} {u : Unit} (h : word letters input = .ok (u, rest)) :
    input = letters ++ rest := by
  induction letters generalizing input with
  | nil =>
    cases h
    rfl
  | cons letter letters ih =>
    cases input with
    | nil => cases h
    | cons b input =>
      rw [word] at h
      split at h
      next hb => rw [hb, ih h, List.cons_append]
      next => cases h

theorem mistyped_ne_ok (b : UInt8) (expected : String) (input rest : Bytes) (a : α) :
    mistyped b expected input ≠ .ok (a, rest) := by
  intro h
  obtain ⟨_, _, -, hfail⟩ := exists_of_bind h
  cases hfail

theorem takesOnly_flag : TakesOnly flag fun b octets => octets = boolOctets b := by
  refine takesOnly_of_start fun b left a rest _ h => ?_
  split at h
  next hb =>
    obtain ⟨_, left', hword, hpure⟩ := exists_of_bind h
    obtain ⟨rfl, rfl⟩ := eq_of_pure hpure
    have htail : left = [0x72, 0x75, 0x65] ++ left' := eq_of_word hword
    exact ⟨boolOctets true, by rw [hb, htail]; rfl, rfl⟩
  split at h
  next hb =>
    obtain ⟨_, left', hword, hpure⟩ := exists_of_bind h
    obtain ⟨rfl, rfl⟩ := eq_of_pure hpure
    have htail : left = [0x61, 0x6c, 0x73, 0x65] ++ left' := eq_of_word hword
    exact ⟨boolOctets false, by rw [hb, htail]; rfl, rfl⟩
  next => exact absurd h (mistyped_ne_ok _ _ _ _ _)

theorem eq_of_wordNull {b : UInt8} {left : Bytes} {u : Unit} (hb : b = Ascii.octet 'n')
    (h : wordNull (b :: left) = .ok (u, rest)) : b :: left = nullOctets ++ rest := by
  have htail : left = [0x75, 0x6c, 0x6c] ++ rest := eq_of_word h
  rw [hb, htail]
  rfl

theorem takesOnly_unit : TakesOnly unit fun _ octets => octets = nullOctets := by
  refine takesOnly_of_start fun b left a rest _ h => ?_
  split at h
  next hb => exact ⟨nullOctets, eq_of_wordNull hb h, rfl⟩
  next => exact absurd h (mistyped_ne_ok _ _ _ _ _)

/-- A null, or what the reader of the value takes. -/
theorem takesOnly_optional {writes : α → Bytes → Prop} (h : TakesOnly reader writes) :
    TakesOnly (Reader.optional reader) fun a? octets =>
      match a? with
      | none => octets = nullOctets
      | some a => writes a octets := by
  intro input a? rest hread
  obtain ⟨blanks, left, hblanks, rfl, -, hread⟩ := exists_of_peek hread
  split at hread
  next hnull =>
    obtain ⟨left, rfl⟩ := List.head?_eq_some_iff.1 hnull
    obtain ⟨_, left', hword, hpure⟩ := exists_of_bind hread
    obtain ⟨rfl, rfl⟩ := eq_of_pure hpure
    exact ⟨blanks, nullOctets, hblanks, by rw [eq_of_wordNull rfl hword], rfl⟩
  next =>
    obtain ⟨a, left', hvalue, hpure⟩ := exists_of_bind hread
    obtain ⟨rfl, rfl⟩ := eq_of_pure hpure
    obtain ⟨blanks', octets, hblanks', rfl, hwrites⟩ := h _ a _ hvalue
    exact ⟨blanks ++ blanks', octets, hblanks.append hblanks', by simp, hwrites⟩

end SyncedConfig.Json.Reader
