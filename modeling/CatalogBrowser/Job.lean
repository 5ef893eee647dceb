import CatalogBrowser.Json.Basic

/-!
Long-running jobs and what is known about them.
-/

namespace CatalogBrowser

inductive JobPhase where
  | pending
  | running
  | succeeded
  | failed
  | cancelled
  deriving Repr, DecidableEq

namespace JobPhase

def all : List JobPhase := [.pending, .running, .succeeded, .failed, .cancelled]

def name : JobPhase → String
  | .pending => "pending"
  | .running => "running"
  | .succeeded => "succeeded"
  | .failed => "failed"
  | .cancelled => "cancelled"

def ofName? (name : String) : Option JobPhase := all.find? fun state => state.name = name

def ofJson? : Json → Option JobPhase := Json.choice? ofName?

def isOver : JobPhase → Bool
  | .succeeded | .failed | .cancelled => true
  | .pending | .running => false

end JobPhase

structure JobStatus where
  id : String
  state : JobPhase
  progress : Option Float := none
  message : Option String := none

namespace JobStatus

def memberNames : List String := ["id", "status", "progress", "message"]

def ofJson? (json : Json) : Option JobStatus := do
  let record ← json.record? memberNames
  let id ← Json.required? record "id" Json.text?
  let state ← Json.required? record "status" JobPhase.ofJson?
  let progress ← Json.optional? record "progress" Json.real?
  let message ← Json.optional? record "message" Json.text?
  some { id, state, progress, message }

def toJson (real : Float → Json) (status : JobStatus) : Json :=
  .ofMembers [("id", some (.string status.id)), ("status", some (.string status.state.name)),
    ("progress", status.progress.map real), ("message", status.message.map .string)]

def isOver (status : JobStatus) : Bool := status.state.isOver

end JobStatus

end CatalogBrowser
