import CatalogBrowser.Json.Basic

/-!
The title, the breadcrumbs and the selected entity of a page.

Whichever view was mounted last owns the page.  Mounting gives out a ticket; releasing the ticket
clears the page unless another view has been mounted in the meantime.
-/

namespace CatalogBrowser

structure Breadcrumb where
  label : String
  path : Option String := none
  deriving Repr, DecidableEq

structure Subject where
  kind : String
  id : String
  label : String
  deriving Repr, DecidableEq

structure PageState where
  title : Option String := none
  breadcrumbs : List Breadcrumb := []
  selected : Option Subject := none
  deriving Repr, DecidableEq

structure PageTicket where
  generation : UInt64
  deriving Repr, DecidableEq

/-- Mounts are counted, so that a ticket tells whether its mount is the latest. -/
structure Page where
  state : PageState := {}
  generation : UInt64 := 0
  deriving Repr, DecidableEq

namespace Page

def mount (page : Page) (title : String) (breadcrumbs : List Breadcrumb) :
    PageTicket × Page :=
  let generation := page.generation + 1
  (⟨generation⟩, ⟨{ title := some title, breadcrumbs }, generation⟩)

def trail (state : PageState) : List Breadcrumb :=
  match state.selected, state.breadcrumbs.getLast? with
  | some previous, some last =>
    if last.label = previous.label then state.breadcrumbs.dropLast else state.breadcrumbs
  | _, _ => state.breadcrumbs

def select (page : Page) (entity : Subject) : Page :=
  { page with
    state := { page.state with
      breadcrumbs := trail page.state ++ [{ label := entity.label }]
      selected := some entity } }

def release (page : Page) (ticket : PageTicket) : Page :=
  if page.generation = ticket.generation then { page with state := {} } else page

theorem release_of_ne {page : Page} {ticket : PageTicket}
    (stale : page.generation ≠ ticket.generation) : page.release ticket = page := by
  simp [release, stale]

end Page

def Breadcrumb.toJson (crumb : Breadcrumb) : Json :=
  .ofMembers [("label", some (.string crumb.label)), ("path", crumb.path.map .string)]

def Subject.toJson (entity : Subject) : Json :=
  .object [("kind", .string entity.kind), ("id", .string entity.id),
    ("label", .string entity.label)]

def PageState.toJson (state : PageState) : Json :=
  .object [("title", .ofOption .string state.title),
    ("breadcrumbs", .array (state.breadcrumbs.map Breadcrumb.toJson)),
    ("selected", .ofOption Subject.toJson state.selected)]

end CatalogBrowser
