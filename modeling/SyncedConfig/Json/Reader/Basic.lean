import SyncedConfig.Json.Fault

/-!
# Readers

A reader takes a value off the front of some data and leaves the rest. Data is read from
left to right and the first fault ends the reading. A fault is placed either where the
reader stands or behind the octet it looks at, the end of the data counting as no octet.
-/
namespace SyncedConfig.Json

/-- Takes a value off the front of some data. -/
abbrev Reader (α : Type) : Type := StateT Bytes (Except Fault) α

namespace Reader

variable {α : Type}

def fail (cause : Cause) : Reader α := fun input => .error (.placed cause input.length)

/-- Refuses the data because of the next octet. -/
def failNext (cause : Cause) : Reader α := fun input => .error (.placed cause (input.length - 1))

def failWhole (cause : Cause) : Reader α := fun input => .error (.floating cause input)

def isBlank (b : UInt8) : Bool := b = 0x20 || b = 0x09 || b = 0x0a || b = 0x0d

def dropBlanks (input : Bytes) : Bytes := input.dropWhile isBlank

def skipBlanks : Reader Unit := fun input => .ok ((), dropBlanks input)

def peek? : Reader (Option UInt8) := fun input => .ok (input.head?, input)

def advance : Reader Unit := fun input => .ok ((), input.tail)

/-- The octet that a value starts with, which stays in the data. -/
def valueStart : Reader UInt8 := do
  skipBlanks
  match ← peek? with
  | some b => return b
  | none => failNext .endInValue

/-- Takes the remaining letters of a word. -/
def word : Bytes → Reader Unit
  | [], input => .ok ((), input)
  | _ :: _, [] => .error (.placed .endInValue 0)
  | letter :: letters, b :: rest =>
    if b = letter then word letters rest else .error (.placed .wordExpected rest.length)

def wordNull : Reader Unit := do
  advance
  word [0x75, 0x6c, 0x6c]

def wordTrue : Reader Unit := do
  advance
  word [0x72, 0x75, 0x65]

def wordFalse : Reader Unit := do
  advance
  word [0x61, 0x6c, 0x73, 0x65]

/-- Reads the whole data: one value with nothing but blanks behind it. -/
def whole (reader : Reader α) : Reader α := do
  let a ← reader
  skipBlanks
  match ← peek? with
  | none => return a
  | some _ => failNext .trailingCharacters

def decode (reader : Reader α) (data : Bytes) : Except Error α :=
  match reader.whole data with
  | .ok (a, _) => .ok a
  | .error fault => .error (fault.toError data)

end Reader
end SyncedConfig.Json
