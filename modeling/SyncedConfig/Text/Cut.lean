/-!
# Cutting text at octet counts

Lengths and positions in a text are counted in octets of its UTF-8 form. A position
is a boundary if no character straddles it, and only there may a text be cut.
-/
namespace SyncedConfig.Text

/-- The number of octets that a text takes. -/
def size : List Char → Nat
  | [] => 0
  | c :: rest => c.utf8Size + size rest

/-- Whether a character of the text ends, or the text starts, after `n` octets. -/
def isBoundary : List Char → Nat → Bool
  | _, 0 => true
  | [], _ + 1 => false
  | c :: rest, n + 1 => c.utf8Size ≤ n + 1 && isBoundary rest (n + 1 - c.utf8Size)

/-- The last boundary that is no further than `n`. -/
def lastBoundary (text : List Char) : Nat → Nat
  | 0 => 0
  | n + 1 => if isBoundary text (n + 1) then n + 1 else lastBoundary text n

/-- The characters that end within the first `n` octets. -/
def takeOctets : List Char → Nat → List Char
  | [], _ => []
  | c :: rest, n => if c.utf8Size ≤ n then c :: takeOctets rest (n - c.utf8Size) else []

def dropOctets? : List Char → Nat → Option (List Char)
  | text, 0 => some text
  | [], _ + 1 => none
  | c :: rest, n + 1 =>
    if c.utf8Size ≤ n + 1 then dropOctets? rest (n + 1 - c.utf8Size) else none

/-- Shortens a text to at most `n` octets, at a boundary. -/
def cut (text : List Char) (n : Nat) : List Char :=
  if size text ≤ n then text else takeOctets text (lastBoundary text n)

end SyncedConfig.Text
