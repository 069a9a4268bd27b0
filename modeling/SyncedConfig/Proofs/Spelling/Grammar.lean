import Mathlib.Data.List.Forall2
import SyncedConfig.Bytes.Hex
import SyncedConfig.Bytes.Utf8
import SyncedConfig.Proofs.Reading.Basic
import SyncedConfig.Proofs.Reading.Printed

/-!
# How data may be written

A text, a list, an object or any other value may be written in many ways: blanks stand between
its parts or not, and a character stands for itself or is escaped. The grammar says which octets
are a way to write what, and knows nothing of how they are read.
-/
namespace SyncedConfig.Json

open Reader (Blank Ends isBlank)

/-- The octet is the hexadecimal digit of a value, in either case. -/
def IsHexDigit (n : Nat) (b : UInt8) : Prop :=
  n < 16 ∧ (b = Ascii.octet (Hex.digitChar n) ∨ b = Ascii.octet (Hex.digitChar n).toUpper)

/-- An escape that gives a number by four digits. -/
inductive IsCode : Nat → Bytes → Prop
  | mk {n₁ n₂ n₃ n₄ : Nat} {b₁ b₂ b₃ b₄ : UInt8} (h₁ : IsHexDigit n₁ b₁) (h₂ : IsHexDigit n₂ b₂)
      (h₃ : IsHexDigit n₃ b₃) (h₄ : IsHexDigit n₄ b₄) :
      IsCode (((n₁ * 16 + n₂) * 16 + n₃) * 16 + n₄)
        [Ascii.backslash, Ascii.octet 'u', b₁, b₂, b₃, b₄]

/-- The letters that may stand behind a backslash, and what they stand for there. -/
def shortEscapes : List (Char × Char) :=
  [('"', '"'), ('\\', '\\'), ('/', '/'), ('b', '\x08'), ('f', '\x0c'), ('n', '\n'), ('r', '\r'),
    ('t', '\t')]

/-- The ways to write a character between quotes. -/
inductive SpellsChar : Char → Bytes → Prop
  | plain {c : Char} (hcontrol : 0x20 ≤ c.toNat) (hquote : c ≠ '"') (hbackslash : c ≠ '\\') :
      SpellsChar c (String.utf8EncodeChar c)
  | short {letter c : Char} (h : (letter, c) ∈ shortEscapes) :
      SpellsChar c [Ascii.backslash, Ascii.octet letter]
  | code {c : Char} {octets : Bytes} (h : IsCode c.toNat octets) : SpellsChar c octets
  /-- A character above U+FFFF is written as two halves. -/
  | pair {c : Char} {high low : Bytes} (h : 0x10000 ≤ c.toNat)
      (hhigh : IsCode (0xd800 + (c.toNat - 0x10000) / 0x400) high)
      (hlow : IsCode (0xdc00 + (c.toNat - 0x10000) % 0x400) low) : SpellsChar c (high ++ low)

/-- The octets write a text between quotes. -/
def SpellsText (s : String) (octets : Bytes) : Prop :=
  ∃ pieces : List Bytes, List.Forall₂ SpellsChar s.toList pieces ∧
    octets = Ascii.quote :: (pieces.flatten ++ [Ascii.quote])

/-- What may stand between quotes if nobody asks for the text: half of a pair may stand alone. -/
inductive IsPiece : Bytes → Prop
  | plain {c : Char} (hcontrol : 0x20 ≤ c.toNat) (hquote : c ≠ '"') (hbackslash : c ≠ '\\') :
      IsPiece (String.utf8EncodeChar c)
  | short {letter c : Char} (h : (letter, c) ∈ shortEscapes) :
      IsPiece [Ascii.backslash, Ascii.octet letter]
  | code {n : Nat} {octets : Bytes} (h : IsCode n octets) : IsPiece octets

def IsQuoted (octets : Bytes) : Prop :=
  ∃ pieces : List Bytes, (∀ piece ∈ pieces, IsPiece piece) ∧
    octets = Ascii.quote :: (pieces.flatten ++ [Ascii.quote])

def IsDigits (octets : Bytes) : Prop := octets ≠ [] ∧ ∀ b ∈ octets, Ascii.isDigit b = true

/-- The digits before a point start with a zero only if it is the only one. -/
def IsWhole (octets : Bytes) : Prop :=
  octets = [0x30] ∨
    ∃ b digits, octets = b :: digits ∧ b ≠ 0x30 ∧ IsDigits octets

def IsFraction (octets : Bytes) : Prop :=
  octets = [] ∨ ∃ digits, IsDigits digits ∧ octets = Ascii.point :: digits

def IsExponent (octets : Bytes) : Prop :=
  octets = [] ∨ ∃ letter sign digits, (letter = Ascii.octet 'e' ∨ letter = Ascii.octet 'E') ∧
    (sign = [] ∨ sign = [Ascii.plus] ∨ sign = [Ascii.minus]) ∧ IsDigits digits ∧
    octets = letter :: (sign ++ digits)

def IsNumber (octets : Bytes) : Prop :=
  ∃ sign whole fraction exponent, (sign = [] ∨ sign = [Ascii.minus]) ∧ IsWhole whole ∧
    IsFraction fraction ∧ IsExponent exponent ∧
    octets = sign ++ (whole ++ (fraction ++ exponent))

/-- The first octet is no blank and no closing bracket. -/
def Opens (octets : Bytes) : Prop :=
  ∃ b rest, octets = b :: rest ∧ isBlank b = false ∧ b ≠ Ascii.closeList ∧ b ≠ Ascii.closeObject

/-- What stands between brackets: items with a comma between any two, and blanks around each. -/
inductive IsRow : (isFirst : Bool) → List Bytes → Bytes → Prop
  | nil {isFirst : Bool} {blanks : Bytes} (h : Blank blanks) : IsRow isFirst [] blanks
  | cons {isFirst : Bool} {before behind item row : Bytes} {items : List Bytes}
      (hbefore : Blank before) (hbehind : Blank behind) (hrow : IsRow false items row) :
      IsRow isFirst (item :: items) (before ++ (separator isFirst ++ (behind ++ (item ++ row))))

theorem IsRow.ends {items : List Bytes} {row rest : Bytes} (h : IsRow false items row)
    (hrest : Ends rest) : Ends (row ++ rest) := by
  cases h with
  | nil h => exact Ends.append h hrest
  | cons hbefore =>
    rw [List.append_assoc]
    exact Ends.append hbefore (Reader.ends_cons _ (.inr (.inl rfl)))

theorem IsRow.length_le {isFirst : Bool} {items : List Bytes} {row : Bytes}
    (h : IsRow isFirst items row) (hitems : ∀ item ∈ items, Opens item) :
    items.length ≤ row.length := by
  induction h with
  | nil => exact Nat.zero_le _
  | cons _ _ _ ih =>
    obtain ⟨⟨b, t, rfl, -⟩, hbehind⟩ := List.forall_mem_cons.1 hitems
    have := ih hbehind
    simp only [List.length_append, List.length_cons]
    omega

/-- The last item of a row stands behind a row of the others. -/
theorem IsRow.snoc {isFirst : Bool} {items : List Bytes} {last row : Bytes}
    (h : IsRow isFirst (items ++ [last]) row) :
    ∃ front behind blanks, IsRow isFirst items front ∧ Blank behind ∧ Blank blanks ∧
      row = front ++ (separator (isFirst && items.isEmpty) ++ (behind ++ (last ++ blanks))) := by
  induction items generalizing isFirst row with
  | nil =>
    cases h with
    | @cons _ before behind _ blanks _ hbefore hbehind hrow =>
    cases hrow with
    | nil hblanks => exact ⟨before, behind, blanks, .nil hbefore, hbehind, hblanks, by simp⟩
  | cons item items ih =>
    cases h with
    | @cons _ before behind _ row _ hbefore hbehind hrow =>
    obtain ⟨front, behind', blanks, hfront, hbehind', hblanks, rfl⟩ := ih hrow
    refine ⟨_, behind', blanks, .cons hbefore hbehind hfront, hbehind', hblanks, ?_⟩
    simp

def IsList (items : List Bytes) (octets : Bytes) : Prop :=
  ∃ row, IsRow true items row ∧ octets = Ascii.openList :: (row ++ [Ascii.closeList])

theorem exists_of_mem_items {α β : Type} {R : α → β → Prop} {as : List α} {items : List β}
    (h : List.Forall₂ R as items) {item : β} (hitem : item ∈ items) : ∃ a ∈ as, R a item := by
  induction h with
  | nil => cases hitem
  | cons hhead _ ih =>
    rcases List.mem_cons.1 hitem with rfl | hitem
    · exact ⟨_, List.mem_cons_self .., hhead⟩
    · obtain ⟨a, ha, hR⟩ := ih hitem
      exact ⟨a, List.mem_cons_of_mem _ ha, hR⟩

theorem isList_singleton (item : Bytes) :
    IsList [item] (Ascii.openList :: (item ++ [Ascii.closeList])) := by
  have hrow : IsRow true [item] ([] ++ (separator true ++ ([] ++ (item ++ [])))) :=
    .cons Reader.blank_nil Reader.blank_nil (.nil Reader.blank_nil)
  exact ⟨item, by simpa [separator] using hrow, rfl⟩

def IsMember (name value octets : Bytes) : Prop :=
  ∃ before behind, Blank before ∧ Blank behind ∧
    octets = name ++ (before ++ Ascii.colon :: (behind ++ value))

/-- The octets are an object of these members, the names of which may be written in any way. -/
def IsObject (members : List (String × Bytes)) (octets : Bytes) : Prop :=
  ∃ items row,
    List.Forall₂ (fun m item => ∃ name, SpellsText m.1 name ∧ IsMember name m.2 item) members items ∧
    IsRow true items row ∧ octets = Ascii.openObject :: (row ++ [Ascii.closeObject])

def nullOctets : Bytes := ['n', 'u', 'l', 'l'].map Ascii.octet

def boolOctets (b : Bool) : Bytes :=
  (if b then ['t', 'r', 'u', 'e'] else ['f', 'a', 'l', 's', 'e']).map Ascii.octet

/-- The octets are a value, whatever it is. -/
inductive IsValue : Bytes → Prop
  | null : IsValue nullOctets
  | bool (b : Bool) : IsValue (boolOctets b)
  | number {octets : Bytes} (h : IsNumber octets) : IsValue octets
  | text {octets : Bytes} (h : IsQuoted octets) : IsValue octets
  | list {items : List Bytes} {octets : Bytes} (hitems : ∀ item ∈ items, IsValue item)
      (h : IsList items octets) : IsValue octets
  | object {members : List (Bytes × Bytes)} {items : List Bytes} {row : Bytes}
      (hnames : ∀ m ∈ members, IsQuoted m.1) (hvalues : ∀ m ∈ members, IsValue m.2)
      (hitems : List.Forall₂ (fun m item => IsMember m.1 m.2 item) members items)
      (hrow : IsRow true items row) :
      IsValue (Ascii.openObject :: (row ++ [Ascii.closeObject]))

theorem SpellsText.head? {s : String} {octets : Bytes} (h : SpellsText s octets) :
    octets.head? = some Ascii.quote := by
  obtain ⟨pieces, -, rfl⟩ := h
  rfl

theorem IsList.head? {items : List Bytes} {octets : Bytes} (h : IsList items octets) :
    octets.head? = some Ascii.openList := by
  obtain ⟨row, -, rfl⟩ := h
  rfl

theorem IsObject.head? {members : List (String × Bytes)} {octets : Bytes}
    (h : IsObject members octets) : octets.head? = some Ascii.openObject := by
  obtain ⟨items, row, -, -, rfl⟩ := h
  rfl

theorem opens_of_head? {octets : Bytes} {b : UInt8} (h : octets.head? = some b)
    (hb : isBlank b = false ∧ b ≠ Ascii.closeList ∧ b ≠ Ascii.closeObject) : Opens octets := by
  obtain ⟨rest, rfl⟩ := List.head?_eq_some_iff.1 h
  exact ⟨b, rest, rfl, hb⟩

theorem opens_digit {b : UInt8} (h : Ascii.isDigit b = true) (rest : Bytes) :
    Opens (b :: rest) := by
  refine ⟨b, rest, rfl, isBlank_of_isDigit h, ?_, ?_⟩
  · rintro rfl
    exact absurd h (by decide)
  · rintro rfl
    exact absurd h (by decide)

theorem opens_integer (n : Int) : Opens (Utf8.encode (Decimal.ofInt n)) := by
  obtain ⟨b, rest, hoctets, hb⟩ := octets_integer .compact 0 n
  have hcons : Utf8.encode (Decimal.ofInt n) = b :: rest := hoctets
  rw [hcons]
  rcases hb with rfl | hdigit
  · exact ⟨_, rest, rfl, by decide⟩
  · exact opens_digit hdigit rest

theorem head?_integer_ne (n : Int) :
    (Utf8.encode (Decimal.ofInt n)).head? ≠ some (Ascii.octet 'n') := by
  obtain ⟨b, rest, hoctets, hb⟩ := octets_integer .compact 0 n
  have hcons : Utf8.encode (Decimal.ofInt n) = b :: rest := hoctets
  rw [hcons, List.head?_cons, ne_eq, Option.some.injEq]
  rintro rfl
  exact absurd hb (by decide)

theorem opens_number {octets : Bytes} (h : IsNumber octets) : Opens octets := by
  obtain ⟨sign, whole, fraction, exponent, rfl | rfl, hwhole, -, -, rfl⟩ := h
  · rcases hwhole with rfl | ⟨b, digits, rfl, -, -, hdigits⟩
    · exact opens_digit (by decide) _
    · exact opens_digit (hdigits b (List.mem_cons_self ..)) _
  · exact ⟨_, _, rfl, by decide⟩

theorem Opens.append {octets : Bytes} (h : Opens octets) (more : Bytes) :
    Opens (octets ++ more) := by
  obtain ⟨b, rest, rfl, hb⟩ := h
  exact ⟨b, rest ++ more, rfl, hb⟩

end SyncedConfig.Json
