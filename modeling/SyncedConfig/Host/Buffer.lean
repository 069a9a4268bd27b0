import SyncedConfig.Bytes.Utf8
import SyncedConfig.Host.Handle
import SyncedConfig.Text.Cut

/-!
# Texts for a host

A host takes texts as octets that end with a zero. Into a buffer of its own as much of a
text is written as leaves room for the zero, without cutting a character; what lies behind
the zero is not touched. A dump must not contain a zero, or else an empty document is
handed over instead.
-/
namespace SyncedConfig

/-- Writes a text and a zero over the start of a buffer, and returns the length of the text. -/
def writeTerminated (buffer : Bytes) (text : String) : Nat × Bytes :=
  match buffer.length with
  | 0 => (0, buffer)
  | room + 1 =>
    let octets := Utf8.encode (Text.cut text.toList room)
    (octets.length, octets ++ 0 :: buffer.drop (octets.length + 1))

/-- The document that stands for one that cannot be handed over. -/
def emptyDocument : String := "\x7b\x7d"

namespace Handle

def terminatedDump (h : Handle) : Except HostError Bytes :=
  let octets := Utf8.ofString h.dump
  if octets.contains 0 then .error .interiorNul else .ok (octets ++ [0])

def terminatedDumpOrEmpty (h : Handle) : Bytes :=
  match h.terminatedDump with
  | .ok octets => octets
  | .error _ => Utf8.ofString emptyDocument ++ [0]

end Handle
end SyncedConfig
