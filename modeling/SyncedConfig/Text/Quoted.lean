import SyncedConfig.Unicode.Extender
import SyncedConfig.Unicode.Printable

/-!
# Quoted text

Messages quote foreign text so that every character of it shows: the quote, the backslash
and four controls have an escape of their own, and what leaves no mark or is drawn onto the
character before it is written by its code point.
-/
namespace SyncedConfig.Text

def hexDigits (n : Nat) : List Char := Nat.toDigits 16 n

def quotedChar (c : Char) : List Char :=
  match c with
  | '\x00' => ['\\', '0']
  | '\t' => ['\\', 't']
  | '\n' => ['\\', 'n']
  | '\r' => ['\\', 'r']
  | '"' => ['\\', '"']
  | '\\' => ['\\', '\\']
  | c =>
    if Unicode.isAttached c || !Unicode.isPrintable c then
      '\\' :: 'u' :: '\x7b' :: hexDigits c.toNat ++ ['\x7d']
    else [c]

def quoted (s : String) : String :=
  String.ofList ('"' :: s.toList.flatMap quotedChar ++ ['"'])

end SyncedConfig.Text
