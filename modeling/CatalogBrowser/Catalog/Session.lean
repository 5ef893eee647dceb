import CatalogBrowser.Catalog.Tree

/-!
A lazy tree with the operations that wait for the backend.

Every backend call has a number that the caller chooses.  An operation that makes a call waits
under that number until its reply comes or until it is abandoned; replies may come in any order.
-/

namespace CatalogBrowser

inductive CatalogOperation where
  | load
  | expand (id : String)
  | toggle (id : String)
  deriving Repr, DecidableEq

inductive CatalogAnswer where
  | count (roots : Nat)
  | outcome (outcome : Expansion)
  | state (state : FoldState)
  deriving Repr, DecidableEq

def CatalogAnswer.toJson : CatalogAnswer → Json
  | .count roots => .ofNat roots
  | .outcome ended => ended.toJson
  | .state now => now.toJson

inductive Waiting where
  | roots
  | children (mark : FetchMark) (toggling : Bool)
  deriving Repr, DecidableEq

structure Finished where
  result : Except Error CatalogAnswer
  notes : List Notification := []

inductive Started where
  | finished (finish : Finished)
  | waiting (call : CatalogCall)

structure CatalogSession where
  tree : CatalogTree
  waiting : List (Nat × Waiting) := []

namespace CatalogSession

/-- The answer to an expansion; toggling answers with the state the node is in. -/
def answer (tree : CatalogTree) (id : String) (toggling : Bool) (outcome : Expansion) :
    CatalogAnswer :=
  if toggling then .state (tree.state id) else .outcome outcome

def wait (session : CatalogSession) (number : Nat) (operation : Waiting) : CatalogSession :=
  { session with waiting := session.waiting ++ [(number, operation)] }

def finishExpand (session : CatalogSession) (mark : FetchMark) (toggling : Bool)
    (reply : Except Error (List CatalogNode)) : CatalogSession × Finished :=
  let (tree, result, notes) := session.tree.finishExpand mark reply
  ({ session with tree }, ⟨result.map (answer tree mark.id toggling), notes⟩)

def startExpand (session : CatalogSession) (number : Nat) (id : String) (toggling : Bool) :
    CatalogSession × Started :=
  match session.tree.startExpand id with
  | (tree, .answered result) =>
    ({ session with tree }, .finished ⟨result.map (answer tree id toggling), []⟩)
  | (tree, .fetching mark (.ok (some call))) =>
    (({ session with tree }).wait number (.children mark toggling), .waiting call)
  | (tree, .fetching mark (.ok none)) =>
    let (session, finish) := ({ session with tree }).finishExpand mark toggling (.ok [])
    (session, .finished finish)
  | (tree, .fetching mark (.error error)) =>
    let (session, finish) := ({ session with tree }).finishExpand mark toggling (.error error)
    (session, .finished finish)

def start (session : CatalogSession) (number : Nat) : CatalogOperation → CatalogSession × Started
  | .load => (session.wait number .roots, .waiting .catalogs)
  | .expand id => session.startExpand number id false
  | .toggle id =>
    match session.tree.collapse id with
    | (tree, true) => ({ session with tree }, .finished ⟨.ok (.state .collapsed), []⟩)
    | (_, false) => session.startExpand number id true

def forget (session : CatalogSession) (number : Nat) : CatalogSession :=
  { session with waiting := session.waiting.filter fun entry => entry.1 ≠ number }

def finish (session : CatalogSession) (number : Nat) (reply : Except Error (List CatalogNode)) :
    CatalogSession × Option Finished :=
  match session.waiting.lookup number with
  | none => (session, none)
  | some .roots =>
    let (tree, result, notes) := session.tree.finishLoad reply
    ({ session.forget number with tree }, some ⟨result.map .count, notes⟩)
  | some (.children mark toggling) =>
    let (session, finish) := (session.forget number).finishExpand mark toggling reply
    (session, some finish)

def abandon (session : CatalogSession) (number : Nat) : CatalogSession :=
  match session.waiting.lookup number with
  | some (.children mark _) =>
    { session.forget number with tree := session.tree.clearMark mark }
  | some .roots | none => session.forget number

def replaceRoots (session : CatalogSession) (nodes : List CatalogNode) : CatalogSession :=
  { session with tree := session.tree.replaceRoots nodes }

def collapse (session : CatalogSession) (id : String) : CatalogSession × Bool :=
  let (tree, shown) := session.tree.collapse id
  ({ session with tree }, shown)

end CatalogSession

end CatalogBrowser
