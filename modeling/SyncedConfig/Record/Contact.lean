import SyncedConfig.Duration
import SyncedConfig.Record.Modes
import SyncedConfig.Record.Picture

/-!
# Contacts

What an account remembers about another account.
-/
namespace SyncedConfig

structure Contact where
  sessionId : String := ""
  /-- The name that the contact chose. -/
  name : String := ""
  /-- The name that the user gave the contact. -/
  nickname : String := ""
  picture : Picture := {}
  approved : Bool := false
  approvedMe : Bool := false
  blocked : Bool := false
  /-- Above zero the contact is pinned, below zero hidden. -/
  priority : Int32 := 0
  notifications : NotificationMode := .byApp
  muteUntil : Option Int64 := none
  expiration : ExpirationMode := .never
  timer : Duration := .zero
  created : Int64 := 0
  deriving DecidableEq, Inhabited

namespace Contact

def schema : Schema Contact :=
  .plain "Contact"
    (.field "session_id" .text (some "") <|
      .field "name" .text (some "") <|
      .field "nickname" .text (some "") <|
      .field "profile_picture" Picture.schema (some {}) <|
      .field "approved" .flag (some false) <|
      .field "approved_me" .flag (some false) <|
      .field "blocked" .flag (some false) <|
      .field "priority" (.word .int32) (some 0) <|
      .field "notifications" NotificationMode.schema (some .byApp) <|
      .field "mute_until" (.optional (.word .int64)) (some none) <|
      .field "exp_mode" ExpirationMode.schema (some .never) <|
      .field "exp_timer" Duration.schema (some .zero) <|
      .field "created" (.word .int64) (some 0) .done)
    (fun c => (c.sessionId, c.name, c.nickname, c.picture, c.approved, c.approvedMe, c.blocked,
      c.priority, c.notifications, c.muteUntil, c.expiration, c.timer, c.created, ()))
    (fun (sessionId, name, nickname, picture, approved, approvedMe, blocked, priority,
        notifications, muteUntil, expiration, timer, created, ()) =>
      { sessionId, name, nickname, picture, approved, approvedMe, blocked, priority,
        notifications, muteUntil, expiration, timer, created })
    (fun _ => rfl)

def document (c : Contact) : Json :=
  .object
    [("session_id", .text c.sessionId),
      ("name", .text c.name),
      ("nickname", .text c.nickname),
      ("profile_picture", c.picture.document),
      ("approved", .bool c.approved),
      ("approved_me", .bool c.approvedMe),
      ("blocked", .bool c.blocked),
      ("priority", .integer c.priority.toInt),
      ("notifications", .text c.notifications.token),
      ("mute_until", .ofInt64? c.muteUntil),
      ("exp_mode", .text c.expiration.token),
      ("exp_timer", c.timer.document),
      ("created", .integer c.created.toInt)]

end Contact
end SyncedConfig
