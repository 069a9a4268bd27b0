import SyncedConfig.Unicode.Blank

/-!
# Addresses of servers

The address of a server can be written in many ways. The canonical one has no blanks
around it, no capital letters below U+0080, no slashes at its end, and no `:80` or `:443`
at its end that its scheme implies.
-/
namespace SyncedConfig.ServerUrl

/-- A text without the slashes at its end. -/
def dropSlashes (text : List Char) : List Char := (text.reverse.dropWhile (· = '/')).reverse

/-- The start of an address, and the ending that goes without saying behind it. -/
structure Scheme where
  start : List Char
  ending : List Char

def http : Scheme := ⟨['h', 't', 't', 'p', ':', '/', '/'], [':', '8', '0']⟩

def https : Scheme :=
  ⟨['h', 't', 't', 'p', 's', ':', '/', '/'], [':', '4', '4', '3']⟩

/-- An address of the scheme without the implied ending, if it has that ending. -/
def Scheme.dropEnding? (scheme : Scheme) (url : List Char) : Option (List Char) :=
  let host := url.drop scheme.start.length
  if scheme.start.isPrefixOf url && scheme.ending.isSuffixOf host then
    some (scheme.start ++ host.take (host.length - scheme.ending.length))
  else none

/-- An address without an ending that its scheme implies. -/
def dropImplied (url : List Char) : List Char :=
  ((http.dropEnding? url).or (https.dropEnding? url)).getD url

def canonicalChars (url : List Char) : List Char :=
  dropImplied (dropSlashes ((Unicode.trim url).map Char.toLower))

def canonical (url : String) : String := String.ofList (canonicalChars url.toList)

end SyncedConfig.ServerUrl
