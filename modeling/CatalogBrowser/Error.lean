import CatalogBrowser.Access.Level
import CatalogBrowser.Iri.Basic

/-!
What can go wrong, by cause.

Each error has a message for the user and falls into one of five categories, which decide how the
error is shown.
-/

namespace CatalogBrowser

inductive ErrorCategory where
  | network
  | response
  | validation
  | permission
  | internal
  deriving Repr, DecidableEq

def ErrorCategory.name : ErrorCategory → String
  | .network => "network"
  | .response => "response"
  | .validation => "validation"
  | .permission => "permission"
  | .internal => "internal"

inductive Error where
  | message (text : String)
  | fetch (url cause : String)
  | response (status : Nat) (detail : String)
  | validation (field reason : String)
  | permissionDenied (feature : String) (required : AccessLevel)
  | notFound (what : String)
  | iri (cause : IriError)
  | json
  | yaml
  | io (text : String)
  | any (text : String)
  deriving Repr, DecidableEq

namespace Error

def text : Error → String
  | .message text => text
  | .fetch url cause => "request to `" ++ url ++ "` failed: " ++ cause
  | .response status detail => "backend responded with " ++ toString status ++ ": " ++ detail
  | .validation field reason => "invalid " ++ field ++ ": " ++ reason
  | .permissionDenied feature required =>
    "access to " ++ feature ++ " requires " ++ required.word ++ " permission"
  | .notFound what => "not found: " ++ what
  | .iri cause => cause.message
  | .json => "unexpected JSON value"
  | .yaml => "invalid configuration"
  | .io text => text
  | .any text => text

def category : Error → ErrorCategory
  | .fetch .. => .network
  | .response .. => .response
  | .validation .. | .iri _ => .validation
  | .permissionDenied .. => .permission
  | .message _ | .notFound _ | .json | .yaml | .io _ | .any _ => .internal

def readable : Option α → Except Error α
  | some value => .ok value
  | none => .error .json

end Error

end CatalogBrowser
