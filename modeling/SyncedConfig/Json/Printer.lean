import SyncedConfig.Bytes.Hex
import SyncedConfig.Decimal.Notation
import SyncedConfig.Json.Basic

/-!
# Printed documents

The compact form has no blanks at all. The pretty form puts each element and member on a
line of its own, two spaces deeper than the brackets around it, and keeps empty brackets
together. Both write the same characters for every scalar: in a text only the quote, the
backslash and the characters below U+0020 are escaped.
-/
namespace SyncedConfig.Json

/-- A character as it stands between quotes. -/
def escapeChar (c : Char) : List Char :=
  match c with
  | '"' => ['\\', '"']
  | '\\' => ['\\', '\\']
  | '\x08' => ['\\', 'b']
  | '\t' => ['\\', 't']
  | '\n' => ['\\', 'n']
  | '\x0c' => ['\\', 'f']
  | '\r' => ['\\', 'r']
  | c =>
    if c.toNat < 0x20 then
      ['\\', 'u', '0', '0', Hex.digitChar (c.toNat / 16), Hex.digitChar (c.toNat % 16)]
    else [c]

def quote (s : String) : List Char := '"' :: s.toList.flatMap escapeChar ++ ['"']

/-- The characters that a layout puts around elements and members. -/
structure Layout where
  /-- Stands before each element of brackets that are nested this deep. -/
  lead : Nat → List Char
  /-- Stands before the closing bracket. -/
  close : Nat → List Char
  /-- Stands between the name and the value of a member. -/
  colon : List Char

def Layout.compact : Layout := ⟨fun _ => [], fun _ => [], [':']⟩

def newline (depth : Nat) : List Char := '\n' :: List.replicate (2 * depth) ' '

def Layout.pretty : Layout :=
  ⟨fun depth => newline (depth + 1), newline, [':', ' ']⟩

mutual

/-- The characters of a value inside `depth` brackets. -/
def print (layout : Layout) (depth : Nat) : Json → List Char
  | null => ['n', 'u', 'l', 'l']
  | bool true => ['t', 'r', 'u', 'e']
  | bool false => ['f', 'a', 'l', 's', 'e']
  | integer n => Decimal.ofInt n
  | float x => Decimal.ofFloat x
  | text s => quote s
  | list [] => ['[', ']']
  | list (item :: items) =>
    '[' :: layout.lead depth ++ print layout (depth + 1) item ++
      (printItems layout depth items ++ (layout.close depth ++ [']']))
  | object [] => ['\x7b', '\x7d']
  | object ((name, value) :: members) =>
    '\x7b' :: layout.lead depth ++ quote name ++ layout.colon ++ print layout (depth + 1) value ++
      (printMembers layout depth members ++ (layout.close depth ++ ['\x7d']))

/-- The elements after the first, each behind its comma. -/
def printItems (layout : Layout) (depth : Nat) : List Json → List Char
  | [] => []
  | item :: items =>
    ',' :: layout.lead depth ++ print layout (depth + 1) item ++ printItems layout depth items

/-- The members after the first, each behind its comma. -/
def printMembers (layout : Layout) (depth : Nat) : List (String × Json) → List Char
  | [] => []
  | (name, value) :: members =>
    ',' :: layout.lead depth ++ quote name ++ layout.colon ++ print layout (depth + 1) value ++
      printMembers layout depth members

end

def compact (document : Json) : String := String.ofList (print .compact 0 document)

def pretty (document : Json) : String := String.ofList (print .pretty 0 document)

end SyncedConfig.Json
