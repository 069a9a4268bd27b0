import SyncedConfig.Bytes.Basic
import SyncedConfig.Decimal.Notation
import SyncedConfig.Text.Quoted

/-!
# Reading faults

A fault says what is wrong with some data and where. The place is kept as the number of
octets that are left behind it, which the reader knows without looking back; line and
column are worked out at the end from the whole data. A fault that a value has as a whole
starts without a place and takes one from the brackets around the value.
-/
namespace SyncedConfig.Json

/-- What stands where another value was wanted. -/
inductive Found
  | null
  | bool (b : Bool)
  | integer (n : Int)
  | float (x : Float)
  | text (s : String)
  | list
  | object
  | bareTag

def Found.describe : Found → String
  | .null => "null"
  | .bool true => "boolean `true`"
  | .bool false => "boolean `false`"
  | .integer n => s!"integer `{String.ofList (Decimal.ofInt n)}`"
  | .float x => s!"floating point `{String.ofList (Decimal.ofFloat x)}`"
  | .text s => s!"string {Text.quoted s}"
  | .list => "sequence"
  | .object => "map"
  | .bareTag => "unit variant"

inductive Cause
  | endInValue
  | endInText
  | endInList
  | endInObject
  | valueExpected
  | wordExpected
  | colonExpected
  | listEndExpected
  | objectEndExpected
  | nameExpected
  | trailingComma
  | trailingCharacters
  | controlCharacter
  | badEscape
  | brokenSurrogate
  | loneSurrogate
  | badText
  | badNumber
  | numberTooLarge
  | tooDeep
  | mistyped (found : Found) (expected : String)
  | outOfRange (n : Int) (expected : String)
  | badLength (n : Nat) (expected : String)
  | missing (field : String)
  | repeated (field : String)
  | unknownField (field : String) (known : List String)
  | unknownTag (tag : String) (known : List String)
  | overflow (type : String)

def alternatives : List String → String
  | [a] => s!"`{a}`"
  | [a, b] => s!"`{a}` or `{b}`"
  | names => "one of " ++ ", ".intercalate (names.map fun a => s!"`{a}`")

def Cause.describe : Cause → String
  | .endInValue => "EOF while parsing a value"
  | .endInText => "EOF while parsing a string"
  | .endInList => "EOF while parsing a list"
  | .endInObject => "EOF while parsing an object"
  | .valueExpected => "expected value"
  | .wordExpected => "expected ident"
  | .colonExpected => "expected `:`"
  | .listEndExpected => "expected `,` or `]`"
  | .objectEndExpected => "expected `,` or `\x7d`"
  | .nameExpected => "key must be a string"
  | .trailingComma => "trailing comma"
  | .trailingCharacters => "trailing characters"
  | .controlCharacter => "control character (\\u0000-\\u001F) found while parsing a string"
  | .badEscape => "invalid escape"
  | .brokenSurrogate => "unexpected end of hex escape"
  | .loneSurrogate => "lone leading surrogate in hex escape"
  | .badText => "invalid unicode code point"
  | .badNumber => "invalid number"
  | .numberTooLarge => "number out of range"
  | .tooDeep => "recursion limit exceeded"
  | .mistyped found expected => s!"invalid type: {found.describe}, expected {expected}"
  | .outOfRange n expected =>
    s!"invalid value: integer `{String.ofList (Decimal.ofInt n)}`, expected {expected}"
  | .badLength n expected =>
    s!"invalid length {String.ofList (Decimal.ofNat n)}, expected {expected}"
  | .missing field => s!"missing field `{field}`"
  | .repeated field => s!"duplicate field `{field}`"
  | .unknownField field known => s!"unknown field `{field}`, expected {alternatives known}"
  | .unknownTag tag known => s!"unknown variant `{tag}`, expected {alternatives known}"
  | .overflow type => s!"overflow deserializing {type}"

inductive Fault
  /-- The fault shows when `left` octets are left. -/
  | placed (cause : Cause) (left : Nat)
  /-- The fault has no place yet; the data still to be read is `rest`. -/
  | floating (cause : Cause) (rest : Bytes)

def Fault.cause : Fault → Cause
  | .placed cause _ => cause
  | .floating cause _ => cause

/-- A place in the data, both counted from one, or zero for the start of a line. -/
structure Position where
  line : Nat
  column : Nat
  deriving DecidableEq

def Position.after (data : Bytes) : Position :=
  ⟨1 + data.count 0x0a, (data.reverse.takeWhile (· ≠ 0x0a)).length⟩

structure Error where
  cause : Cause
  position? : Option Position := none

def Fault.toError (data : Bytes) : Fault → Error
  | .placed cause left => ⟨cause, some (Position.after (data.take (data.length - left)))⟩
  | .floating cause _ => ⟨cause, none⟩

def Error.message (e : Error) : String :=
  match e.position? with
  | some p =>
    s!"{e.cause.describe} at line {String.ofList (Decimal.ofNat p.line)} column " ++
      String.ofList (Decimal.ofNat p.column)
  | none => e.cause.describe

end SyncedConfig.Json
