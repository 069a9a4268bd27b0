import SyncedConfig.Duration
import SyncedConfig.Record.Picture

/-!
# The profile of a user
-/
namespace SyncedConfig

/-- The profile of a user, with the settings of the conversation with themselves. -/
structure Profile where
  name : Option String := none
  picture : Picture := {}
  /-- Whether message requests from blinded ids are accepted. -/
  blindedRequests : Option Bool := none
  notePriority : Int32 := 0
  noteExpiry : Option Duration := none
  deriving DecidableEq, Inhabited

namespace Profile

def schema : Schema Profile :=
  .plain "ProfileFields"
    (.field "name" (.optional .text) (some none) <|
      .field "profile_pic" Picture.schema (some {}) <|
      .field "blinded_msgreqs" (.optional .flag) (some none) <|
      .field "nts_priority" (.word .int32) (some 0) <|
      .field "nts_expiry" (.optional Duration.schema) (some none) .done)
    (fun p => (p.name, p.picture, p.blindedRequests, p.notePriority, p.noteExpiry, ()))
    (fun (name, picture, blindedRequests, notePriority, noteExpiry, ()) =>
      { name, picture, blindedRequests, notePriority, noteExpiry })
    (fun _ => rfl)

def document (p : Profile) : Json :=
  .object
    [("name", .ofText? p.name),
      ("profile_pic", p.picture.document),
      ("blinded_msgreqs", .ofBool? p.blindedRequests),
      ("nts_priority", .integer p.notePriority.toInt),
      ("nts_expiry", .ofDuration? p.noteExpiry)]

end Profile
end SyncedConfig
