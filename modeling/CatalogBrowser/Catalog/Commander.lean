import CatalogBrowser.Access.Permissions
import CatalogBrowser.Catalog.Session

/-!
Two catalog trees side by side, which share a backend and nothing else.
-/

namespace CatalogBrowser

inductive Pane where
  | source
  | target
  deriving Repr, DecidableEq

structure Commander where
  source : CatalogSession := { tree := { name := "source" } }
  target : CatalogSession := { tree := { name := "target" } }

namespace Commander

def open? (permissions : Permissions) : Except Error Commander := do
  permissions.demand .catalogCommander .readOnly
  return {}

def pane (commander : Commander) : Pane → CatalogSession
  | .source => commander.source
  | .target => commander.target

def setPane (commander : Commander) (session : CatalogSession) : Pane → Commander
  | .source => { commander with source := session }
  | .target => { commander with target := session }

/-- The result of loading both panes, once both are done: the first failure, that of the source
before that of the target. -/
def loadResult (source target : Except Error CatalogAnswer) : Except Error Unit := do
  let _ ← source
  let _ ← target
  return ()

theorem pane_setPane (commander : Commander) (session : CatalogSession) (changed asked : Pane) :
    (commander.setPane session changed).pane asked =
      if asked = changed then session else commander.pane asked := by
  cases changed <;> cases asked <;> rfl

end Commander

end CatalogBrowser
