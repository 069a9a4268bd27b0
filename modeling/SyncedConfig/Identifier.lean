import SyncedConfig.Bytes.Hex
import SyncedConfig.Error
import SyncedConfig.Text.Cut

/-!
# Identifiers

An identifier is a public key in hexadecimal behind two characters that say whose it is.
Its form is checked on the octets of the text: their number, the two in front, and then
the digits behind them.
-/
namespace SyncedConfig

inductive IdKind
  | account
  | group
  | blinded
  deriving DecidableEq

namespace IdKind

def lead : IdKind → List Char
  | .account => ['0', '5']
  | .group => ['0', '3']
  | .blinded => ['1', '5']

def keyDigits : Nat := 64

/-- Whether a text has the form of an identifier. -/
def accepts (kind : IdKind) (id : String) : Bool :=
  let text := id.toList
  Text.size text = Text.size kind.lead + keyDigits && kind.lead.isPrefixOf text &&
    (Text.dropOctets? text (Text.size kind.lead)).any (·.all Hex.isDigit)

def check (kind : IdKind) (id : String) : Except SyncError Unit :=
  if kind.accepts id then .ok () else .error (.invalidId id)

end IdKind

/-- The identifier of an account as a community server sees it, with small digits. -/
structure BlindedId where
  text : String
  deriving DecidableEq

/-- Reads a blinded identifier with digits of either case. -/
def BlindedId.parse (id : String) : Except SyncError BlindedId := do
  IdKind.blinded.check id
  return ⟨String.ofList (id.toList.map Char.toLower)⟩

end SyncedConfig
