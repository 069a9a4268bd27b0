import SyncedConfig.Json.Printer
import SyncedConfig.Proofs.Reading.Number

/-!
# The octets of a printed document

Whatever the layout, brackets hold a row of elements or members with commas between them, and
nothing but blanks around these.
-/
namespace SyncedConfig.Json

open Reader (Blank Ends isBlank)

/-- A layout that adds nothing but blanks. -/
structure Layout.IsBlank (layout : Layout) : Prop where
  lead : ∀ depth, Blank (Utf8.encode (layout.lead depth))
  close : ∀ depth, Blank (Utf8.encode (layout.close depth))
  colon : ∃ blanks, Blank blanks ∧ Utf8.encode layout.colon = Ascii.colon :: blanks

theorem Layout.compact_isBlank : Layout.compact.IsBlank where
  lead _ := Reader.blank_nil
  close _ := Reader.blank_nil
  colon := ⟨[], Reader.blank_nil, rfl⟩

theorem blank_newline (depth : Nat) : Blank (Utf8.encode (newline depth)) := by
  have hspaces (n : Nat) : Utf8.encode (List.replicate n ' ') = List.replicate n 0x20 := by
    induction n with
    | zero => rfl
    | succ n ih =>
      rw [List.replicate_succ, Utf8.encode_cons, ih]
      rfl
  intro b hb
  rw [newline, Utf8.encode_cons, hspaces, List.mem_append] at hb
  rcases hb with hb | hb
  · rw [List.mem_singleton.1 hb]
    decide
  · rw [List.eq_of_mem_replicate hb]
    decide

theorem Layout.pretty_isBlank : Layout.pretty.IsBlank where
  lead depth := blank_newline (depth + 1)
  close := blank_newline
  colon := ⟨[0x20], by simp [Blank, isBlank], rfl⟩

/-- The octets of a document inside `depth` brackets. -/
def octets (layout : Layout) (depth : Nat) (j : Json) : Bytes := Utf8.encode (j.print layout depth)

/-- What stands in front of an element or member, but for blanks. -/
def separator (isFirst : Bool) : Bytes := if isFirst then [] else [Ascii.comma]

def itemsOctets (layout : Layout) (depth : Nat) (isFirst : Bool) : List Json → Bytes
  | [] => []
  | item :: items =>
    separator isFirst ++ (Utf8.encode (layout.lead depth) ++
      (item.octets layout (depth + 1) ++ itemsOctets layout depth false items))

def valueOctets (layout : Layout) (depth : Nat) (value : Json) : Bytes :=
  Utf8.encode layout.colon ++ value.octets layout (depth + 1)

def membersOctets (layout : Layout) (depth : Nat) (isFirst : Bool) : List (String × Json) → Bytes
  | [] => []
  | (name, value) :: members =>
    separator isFirst ++ (Utf8.encode (layout.lead depth) ++ (Utf8.encode (quote name) ++
      (valueOctets layout depth value ++ membersOctets layout depth false members)))

variable {layout : Layout} (depth : Nat)

theorem encode_printItems (items : List Json) :
    Utf8.encode (printItems layout depth items) = itemsOctets layout depth false items := by
  induction items with
  | nil => rfl
  | cons item items ih =>
    rw [printItems, itemsOctets, ← ih]
    simp only [Utf8.encode_append, Utf8.encode_cons, List.append_assoc]
    rfl

theorem encode_printMembers (members : List (String × Json)) :
    Utf8.encode (printMembers layout depth members) = membersOctets layout depth false members := by
  induction members with
  | nil => rfl
  | cons member members ih =>
    obtain ⟨name, value⟩ := member
    rw [printMembers, membersOctets, ← ih, valueOctets]
    simp only [Utf8.encode_append, Utf8.encode_cons, List.append_assoc]
    rfl

theorem octets_list (hl : layout.IsBlank) (items : List Json) :
    ∃ blanks, Blank blanks ∧ (list items).octets layout depth =
      Ascii.openList :: (itemsOctets layout depth true items ++ (blanks ++ [Ascii.closeList])) := by
  cases items with
  | nil => exact ⟨[], Reader.blank_nil, rfl⟩
  | cons item items =>
    refine ⟨_, hl.close depth, ?_⟩
    rw [octets, print, itemsOctets, ← encode_printItems]
    simp only [Utf8.encode_append, Utf8.encode_cons, List.append_assoc]
    rfl

theorem octets_object (hl : layout.IsBlank) (members : List (String × Json)) :
    ∃ blanks, Blank blanks ∧ (object members).octets layout depth =
      Ascii.openObject ::
        (membersOctets layout depth true members ++ (blanks ++ [Ascii.closeObject])) := by
  cases members with
  | nil => exact ⟨[], Reader.blank_nil, rfl⟩
  | cons member members =>
    obtain ⟨name, value⟩ := member
    refine ⟨_, hl.close depth, ?_⟩
    rw [octets, print, membersOctets, ← encode_printMembers, valueOctets]
    simp only [Utf8.encode_append, Utf8.encode_cons, List.append_assoc]
    rfl

theorem octets_text (layout : Layout) (depth : Nat) (s : String) :
    (text s).octets layout depth = Utf8.encode (quote s) := by
  rw [octets, print]

theorem octets_integer (layout : Layout) (depth : Nat) (n : Int) :
    ∃ b rest, (integer n).octets layout depth = b :: rest ∧
      (b = Ascii.minus ∨ Ascii.isDigit b = true) := by
  rw [octets, print]
  cases n with
  | ofNat n =>
    obtain ⟨b, rest, h⟩ := List.exists_cons_of_ne_nil (Decimal.octets_ne_nil n)
    exact ⟨b, rest, h, .inr (Decimal.isDigit_of_mem_octets (h ▸ List.mem_cons_self ..))⟩
  | negSucc n => exact ⟨Ascii.minus, Decimal.octets (n + 1), rfl, .inl rfl⟩

theorem isBlank_of_isDigit {b : UInt8} (h : Ascii.isDigit b = true) : isBlank b = false := by
  rw [Bool.eq_false_iff]
  intro hb
  simp only [isBlank, Bool.or_eq_true, decide_eq_true_eq] at hb
  rcases hb with ((rfl | rfl) | rfl) | rfl <;> exact absurd h (by decide)

end SyncedConfig.Json
