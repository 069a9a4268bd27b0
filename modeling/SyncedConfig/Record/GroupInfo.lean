import SyncedConfig.Duration
import SyncedConfig.Record.Picture

/-!
# The description of a group
-/
namespace SyncedConfig

structure GroupDetails where
  name : Option String := none
  description : Option String := none
  picture : Picture := {}
  expiryTimer : Option Duration := none
  created : Option Int64 := none
  /-- Messages before this moment are deleted. -/
  deleteBefore : Option Int64 := none
  /-- Messages with attachments before this moment are deleted. -/
  deleteAttachBefore : Option Int64 := none
  deriving DecidableEq, Inhabited

structure GroupInfo where
  id : String
  details : GroupDetails := {}
  deriving DecidableEq

def GroupDetails.schema : Schema GroupDetails :=
  .plain "InfoFields"
    (.field "name" (.optional .text) (some none) <|
      .field "description" (.optional .text) (some none) <|
      .field "profile_pic" Picture.schema (some {}) <|
      .field "expiry_timer" (.optional Duration.schema) (some none) <|
      .field "created" (.optional (.word .int64)) (some none) <|
      .field "delete_before" (.optional (.word .int64)) (some none) <|
      .field "delete_attach_before" (.optional (.word .int64)) (some none) .done)
    (fun d => (d.name, d.description, d.picture, d.expiryTimer, d.created, d.deleteBefore,
      d.deleteAttachBefore, ()))
    (fun (name, description, picture, expiryTimer, created, deleteBefore, deleteAttachBefore,
        ()) =>
      { name, description, picture, expiryTimer, created, deleteBefore, deleteAttachBefore })
    (fun _ => rfl)

def GroupInfo.document (g : GroupInfo) : Json :=
  .object
    [("id", .text g.id),
      ("name", .ofText? g.details.name),
      ("description", .ofText? g.details.description),
      ("profile_pic", g.details.picture.document),
      ("expiry_timer", .ofDuration? g.details.expiryTimer),
      ("created", .ofInt64? g.details.created),
      ("delete_before", .ofInt64? g.details.deleteBefore),
      ("delete_attach_before", .ofInt64? g.details.deleteAttachBefore)]

end SyncedConfig
