import CatalogBrowser.Job
import CatalogBrowser.Listing.Style
import CatalogBrowser.Number.Binary64

/-!
The status of a job as one line of text.
-/

namespace CatalogBrowser.Listing

def stateStyle : JobPhase → Style
  | .pending => .yellow
  | .running => .blue
  | .succeeded => .boldGreen
  | .failed => .boldRed
  | .cancelled => .dimmed

def progressText : Option Float → String
  | some progress => " " ++ Number.wholeText (progress * 100) ++ "%"
  | none => ""

def messageText : Option String → String
  | some message => " " ++ message
  | none => ""

def job (colored : Bool) (status : JobStatus) : String :=
  status.id ++ " " ++ paint colored (stateStyle status.state) status.state.name ++
    progressText status.progress ++ messageText status.message

end CatalogBrowser.Listing
