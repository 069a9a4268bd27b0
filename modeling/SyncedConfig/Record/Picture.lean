import SyncedConfig.Json.Basic
import SyncedConfig.Schema.Basic

/-!
# Profile pictures

A picture is the address to fetch it from and the key to decrypt it. Without an address
there is no picture, whatever the key.
-/
namespace SyncedConfig

structure Picture where
  url : String := ""
  key : Bytes := []
  deriving DecidableEq, Inhabited

namespace Picture

def isEmpty (p : Picture) : Bool := p.url = ""

def schema : Schema Picture :=
  .plain "ProfilePic" (.field "url" .text none <| .field "key" .bytes (some []) .done)
    (fun p => (p.url, p.key, ()))
    (fun (url, key, ()) => { url, key })
    (fun _ => rfl)

def document (p : Picture) : Json :=
  if p.isEmpty then .null else .object [("url", .text p.url), ("key", .ofBytes p.key)]

end Picture
end SyncedConfig
