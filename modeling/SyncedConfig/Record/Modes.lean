import SyncedConfig.Schema.Basic

/-!
# Modes of a conversation

When a conversation notifies, and when its messages disappear. The token of a mode in a
dump is its tag in a delta, except for a conversation that follows the app.
-/
namespace SyncedConfig

inductive NotificationMode
  /-- As the app does by default. -/
  | byApp
  | all
  | disabled
  | mentionsOnly
  deriving DecidableEq

namespace NotificationMode

instance : Inhabited NotificationMode := ⟨byApp⟩

def tags : Tags NotificationMode where
  table := [("defaulted", byApp), ("all", all), ("disabled", disabled),
    ("mentions_only", mentionsOnly)]
  name
    | byApp => "defaulted"
    | all => "all"
    | disabled => "disabled"
    | mentionsOnly => "mentions_only"
  lookup_name mode := by cases mode <;> rfl

def schema : Schema NotificationMode := .tag tags

def token : NotificationMode → String
  | byApp => "default"
  | mode => tags.name mode

end NotificationMode

/-- When the messages of a conversation start to count down. -/
inductive ExpirationMode
  | never
  | afterSend
  | afterRead
  deriving DecidableEq

namespace ExpirationMode

instance : Inhabited ExpirationMode := ⟨never⟩

def tags : Tags ExpirationMode where
  table := [("none", never), ("after_send", afterSend), ("after_read", afterRead)]
  name
    | never => "none"
    | afterSend => "after_send"
    | afterRead => "after_read"
  lookup_name mode := by cases mode <;> rfl

def schema : Schema ExpirationMode := .tag tags

def token (mode : ExpirationMode) : String := tags.name mode

end ExpirationMode
end SyncedConfig
