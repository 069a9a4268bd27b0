import SyncedConfig.Record.Picture

/-!
# Members of a group
-/
namespace SyncedConfig

/-- A member of a closed group and how far its invitation, promotion and removal have come. -/
structure Member where
  sessionId : String := ""
  name : String := ""
  picture : Picture := {}
  admin : Bool := false
  supplement : Bool := false
  inviteStatus : Int32 := 0
  promotionStatus : Int32 := 0
  removedStatus : Int32 := 0
  deriving DecidableEq, Inhabited

namespace Member

def schema : Schema Member :=
  .plain "GroupMember"
    (.field "session_id" .text (some "") <|
      .field "name" .text (some "") <|
      .field "profile_picture" Picture.schema (some {}) <|
      .field "admin" .flag (some false) <|
      .field "supplement" .flag (some false) <|
      .field "invite_status" (.word .int32) (some 0) <|
      .field "promotion_status" (.word .int32) (some 0) <|
      .field "removed_status" (.word .int32) (some 0) .done)
    (fun m => (m.sessionId, m.name, m.picture, m.admin, m.supplement, m.inviteStatus,
      m.promotionStatus, m.removedStatus, ()))
    (fun (sessionId, name, picture, admin, supplement, inviteStatus, promotionStatus,
        removedStatus, ()) =>
      { sessionId, name, picture, admin, supplement, inviteStatus, promotionStatus,
        removedStatus })
    (fun _ => rfl)

def document (m : Member) : Json :=
  .object
    [("session_id", .text m.sessionId),
      ("name", .text m.name),
      ("profile_picture", m.picture.document),
      ("admin", .bool m.admin),
      ("supplement", .bool m.supplement),
      ("invite_status", .integer m.inviteStatus.toInt),
      ("promotion_status", .integer m.promotionStatus.toInt),
      ("removed_status", .integer m.removedStatus.toInt)]

end Member
end SyncedConfig
