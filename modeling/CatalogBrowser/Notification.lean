import CatalogBrowser.Error

/-!
Short messages for the user.

A view does not hand the failure of a request to its caller alone: it also raises a notification.
-/

namespace CatalogBrowser

inductive Severity where
  | info
  | success
  | error
  deriving Repr, DecidableEq

def Severity.name : Severity → String
  | .info => "info"
  | .success => "success"
  | .error => "error"

structure Notification where
  level : Severity
  title : String
  message : String
  deriving Repr, DecidableEq

namespace Notification

def info (title message : String) : Notification := ⟨.info, title, message⟩

def success (title message : String) : Notification := ⟨.success, title, message⟩

def ofError (title : String) (error : Error) : Notification :=
  ⟨.error, title, match error.category with
    | .network => "Could not reach the server: " ++ error.text
    | .response | .validation | .permission | .internal => error.text⟩

def toJson (notification : Notification) : Json :=
  .object [("level", .string notification.level.name), ("title", .string notification.title),
    ("message", .string notification.message)]

end Notification

end CatalogBrowser
