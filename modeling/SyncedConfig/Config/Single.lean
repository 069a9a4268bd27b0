import SyncedConfig.Config.Basic

/-!
# Editing single records

The settings of a profile and of a group are changed one at a time.
-/
namespace SyncedConfig.Config

section Profile

def setName (c : Config .profile) (name : String) : Config .profile :=
  c.edit fun p => { p with name := some name }

def setPicture (c : Config .profile) (picture : Picture) : Config .profile :=
  c.edit fun p => { p with picture }

def setBlindedRequests (c : Config .profile) (accept : Option Bool) : Config .profile :=
  c.edit fun p => { p with blindedRequests := accept }

def setNotePriority (c : Config .profile) (priority : Int32) : Config .profile :=
  c.edit fun p => { p with notePriority := priority }

/-- Sets the timer of the conversation with oneself; a timer of no length clears it. -/
def setNoteExpiry (c : Config .profile) (expiry : Duration) : Config .profile :=
  c.edit fun p => { p with noteExpiry := if expiry.isZero then none else some expiry }

end Profile

section Group

def editDetails (c : Config .info) (f : GroupDetails → GroupDetails) : Config .info :=
  c.edit fun g => { g with details := f g.details }

def setGroupName (c : Config .info) (name : String) : Config .info :=
  c.editDetails fun d => { d with name := some name }

def setDescription (c : Config .info) (description : String) : Config .info :=
  c.editDetails fun d => { d with description := some description }

def setGroupPicture (c : Config .info) (picture : Picture) : Config .info :=
  c.editDetails fun d => { d with picture }

def setExpiryTimer (c : Config .info) (timer : Duration) : Config .info :=
  c.editDetails fun d => { d with expiryTimer := some timer }

def setCreated (c : Config .info) (moment : Int64) : Config .info :=
  c.editDetails fun d => { d with created := some moment }

def setDeleteBefore (c : Config .info) (moment : Int64) : Config .info :=
  c.editDetails fun d => { d with deleteBefore := some moment }

def setDeleteAttachBefore (c : Config .info) (moment : Int64) : Config .info :=
  c.editDetails fun d => { d with deleteAttachBefore := some moment }

end Group

end SyncedConfig.Config
