import SyncedConfig.Json.Reader.Basic

/-!
# What a reader reads

A reader reads a value from some octets if it takes exactly these octets, and blanks in front
of them, off any data in which a blank, a comma, a closing bracket or nothing comes behind.
-/
namespace SyncedConfig.Json.Reader

variable {α β : Type}

/-- Octets that are all passed over between values. -/
def Blank (octets : Bytes) : Prop := ∀ b ∈ octets, isBlank b = true

/-- Nothing that could continue a value comes first. -/
def Ends (rest : Bytes) : Prop :=
  ∀ b, rest.head? = some b →
    isBlank b = true ∨ b = Ascii.comma ∨ b = Ascii.closeList ∨ b = Ascii.closeObject

/-- The reader takes these octets for a value, with blanks in front of them. -/
def Reads (reader : Reader α) (octets : Bytes) (a : α) : Prop :=
  ∀ blanks rest, Blank blanks → Ends rest → reader (blanks ++ (octets ++ rest)) = .ok (a, rest)

theorem blank_nil : Blank [] := nofun

theorem Blank.append {before after : Bytes} (h₁ : Blank before) (h₂ : Blank after) :
    Blank (before ++ after) := fun b hb => (List.mem_append.1 hb).elim (h₁ b) (h₂ b)

theorem ends_nil : Ends [] := nofun

theorem ends_cons {b : UInt8} (rest : Bytes)
    (h : isBlank b = true ∨ b = Ascii.comma ∨ b = Ascii.closeList ∨ b = Ascii.closeObject) :
    Ends (b :: rest) := by
  intro b' hb'
  cases hb'
  exact h

theorem Ends.append {blanks rest : Bytes} (hb : Blank blanks) (h : Ends rest) :
    Ends (blanks ++ rest) := by
  cases blanks with
  | nil => exact h
  | cons b blanks => exact ends_cons _ (.inl (hb b (List.mem_cons_self ..)))

theorem bind_of_ok {reader : Reader α} {next : α → Reader β} {input rest : Bytes} {a : α}
    (h : reader input = .ok (a, rest)) : (reader >>= next) input = next a rest := by
  simp only [bind, StateT.bind, h, Except.bind]

theorem pure_apply (a : α) (input : Bytes) : (pure a : Reader α) input = .ok (a, input) := rfl

theorem dropBlanks_append {blanks : Bytes} (h : Blank blanks) (rest : Bytes) :
    dropBlanks (blanks ++ rest) = dropBlanks rest := List.dropWhile_append_of_pos h

theorem dropBlanks_cons {b : UInt8} (h : isBlank b = false) (rest : Bytes) :
    dropBlanks (b :: rest) = b :: rest := List.dropWhile_cons_of_neg (by simp [h])

theorem skipBlanks_cons {blanks : Bytes} {b : UInt8} (h : Blank blanks) (hb : isBlank b = false)
    (rest : Bytes) : skipBlanks (blanks ++ b :: rest) = .ok ((), b :: rest) := by
  rw [skipBlanks, dropBlanks_append h, dropBlanks_cons hb]

theorem skipBlanks_comma (rest : Bytes) :
    skipBlanks (Ascii.comma :: rest) = .ok ((), Ascii.comma :: rest) :=
  skipBlanks_cons blank_nil (by decide) rest

theorem peek?_cons (b : UInt8) (rest : Bytes) :
    peek? (b :: rest) = .ok (some b, b :: rest) := rfl

theorem advance_cons (b : UInt8) (rest : Bytes) : advance (b :: rest) = .ok ((), rest) := rfl

theorem valueStart_cons {blanks : Bytes} {b : UInt8} (h : Blank blanks) (hb : isBlank b = false)
    (rest : Bytes) : valueStart (blanks ++ b :: rest) = .ok (b, b :: rest) := by
  rw [valueStart, bind_of_ok (skipBlanks_cons h hb rest), bind_of_ok (peek?_cons b rest)]
  rfl

/-- A value is read with nothing in front of it. -/
theorem Reads.apply {reader : Reader α} {octets rest : Bytes} {a : α} (h : Reads reader octets a)
    (hrest : Ends rest) : reader (octets ++ rest) = .ok (a, rest) := h [] rest blank_nil hrest

theorem Reads.map (f : α → β) {reader : Reader α} {octets : Bytes} {a : α}
    (h : Reads reader octets a) : Reads (do return f (← reader)) octets (f a) := by
  intro blanks rest hb hrest
  rw [bind_of_ok (h blanks rest hb hrest)]
  rfl

/-- A value is read from data that consists of its octets, with blanks around them. -/
theorem Reads.decode_padded {reader : Reader α} {before octets behind : Bytes} {a : α}
    (h : Reads reader octets a) (hbefore : Blank before) (hbehind : Blank behind) :
    reader.decode (before ++ (octets ++ behind)) = .ok a := by
  have hends : Ends behind := by
    rw [← List.append_nil behind]
    exact Ends.append hbehind ends_nil
  have hblanks : skipBlanks behind = .ok ((), []) := by
    rw [skipBlanks, ← List.append_nil behind, dropBlanks_append hbehind]
    rfl
  have hwhole : reader.whole (before ++ (octets ++ behind)) = .ok (a, []) := by
    rw [whole, bind_of_ok (h before behind hbefore hends), bind_of_ok hblanks]
    rfl
  rw [Reader.decode, hwhole]

theorem Reads.decode {reader : Reader α} {octets : Bytes} {a : α} (h : Reads reader octets a) :
    reader.decode octets = .ok a := by
  have hpadded := h.decode_padded blank_nil blank_nil
  rwa [List.nil_append, List.append_nil] at hpadded

end SyncedConfig.Json.Reader
