import SyncedConfig.Bytes.Hex
import SyncedConfig.Error
import SyncedConfig.Json.Basic
import SyncedConfig.Schema.Basic
import SyncedConfig.ServerUrl
import SyncedConfig.Unicode.Lowercase

/-!
# Communities

A community is a room on a server, together with the key of the server. Server and room
are kept as they were given; the address that identifies the community is made of their
normal forms.
-/
namespace SyncedConfig

structure Community where
  baseUrl : String
  room : String
  key : Vector UInt8 32
  deriving DecidableEq

namespace Community

/-- A reference whose server key is given in hexadecimal. -/
def parse (baseUrl room key : String) : Except SyncError Community :=
  match Hex.decode? key.toList with
  | some octets =>
    if h : octets.length = 32 then .ok ⟨baseUrl, room, ⟨octets.toArray, by simpa using h⟩⟩
    else .error (.invalidKey key)
  | none => .error (.invalidKey key)

def canonicalBaseUrl (c : Community) : String := ServerUrl.canonical c.baseUrl

def normalRoom (c : Community) : String := String.ofList (Unicode.toLower c.room.toList)

def keyText (c : Community) : String := String.ofList (Hex.encode c.key.toList)

/-- The identity of a community. -/
def address (c : Community) : String := c.canonicalBaseUrl ++ "/" ++ c.normalRoom

def schema : Schema Community :=
  .plain "CommunityRef"
    (.field "base_url" .text none <| .field "room" .text none <|
      .field "pubkey" (.block 32 (.word .uint8)) none .done)
    (fun c => (c.baseUrl, c.room, c.key, ()))
    (fun (baseUrl, room, key, ()) => { baseUrl, room, key })
    (fun _ => rfl)

def members (c : Community) : List (String × Json) :=
  [("url", .text c.address), ("pub_key", .text c.keyText)]

end Community
end SyncedConfig
