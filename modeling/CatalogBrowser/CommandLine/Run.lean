import CatalogBrowser.Backend.Client
import CatalogBrowser.Backend.Exchange
import CatalogBrowser.CommandLine.Arguments
import CatalogBrowser.Concept.Document
import CatalogBrowser.ConceptTree.View
import CatalogBrowser.JobPoller.Watch
import CatalogBrowser.Listing.Catalog
import CatalogBrowser.Listing.Job
import CatalogBrowser.Listing.Lineage
import CatalogBrowser.Listing.Tree
import CatalogBrowser.ModelsView

/-!
Running a command.

The surroundings of a run are values: the contents of files, the answers of the peer, and whether
the output is colored.  The first failure ends a run.
-/

namespace CatalogBrowser.CommandLine

structure Surroundings where
  contents : String → Except Error String
  colored : Bool := false

structure Progress where
  exchange : Exchange := {}
  output : String := ""
  endless : Bool := false

abbrev Run := ExceptT Error (StateM Progress)

def print (text : String) : Run Unit :=
  modify fun progress => { progress with output := progress.output ++ text }

def perform (call : Call α) : Run (Except Error α) := do
  let progress ← get
  let (exchange, result) := progress.exchange.perform call
  set { progress with exchange }
  return result

inductive ConceptSource where
  | file (file : ConceptDocument)
  | backend (client : Client)

namespace ConceptSource

def allConcepts : ConceptSource → Run (Except Error ConceptGroups)
  | .file held => return .ok held.grouped
  | .backend client => perform client.allConcepts

def hierarchy (iri : Iri) : ConceptSource → Run (Except Error Neighbourhood)
  | .file held => return held.hierarchy iri
  | .backend client => perform (client.hierarchy iri)

end ConceptSource

def openSource (surroundings : Surroundings) (config : Config) (path : Option String) :
    Run ConceptSource :=
  match path with
  | some path => do return .file (← ConceptDocument.ofText (← surroundings.contents path))
  | none => do return .backend (← Client.ofConfig config.backend)

def loadView (source : ConceptSource) (config : Config) (options : DisplayOptions) :
    Run ModelsView := do
  let view ← ModelsView.open? (.uniform .readOnly) options config.lineage
  let loaded := view.refresh (← source.allConcepts)
  loaded.result
  return loaded.view

def showTree (surroundings : Surroundings) (config : Config) (concepts : Option String)
    (properties : Option Bool) (groupBySource groupByDomain : Bool) : Run Unit := do
  let options : DisplayOptions := {
    includeProperties := properties.getD config.tree.includeProperties
    groupBySource := config.tree.groupBySource || groupBySource
    groupByDomain := config.tree.groupByDomain || groupByDomain }
  let source ← openSource surroundings config concepts
  let view ← loadView source config options
  print (Listing.tree surroundings.colored view.tree.view)

def showLineage (surroundings : Surroundings) (config : Config) (text : String)
    (concepts : Option String) : Run Unit := do
  let iri ← (Iri.ofText text).mapError Error.iri
  let source ← openSource surroundings config concepts
  let view ← loadView source config config.tree
  let selected := view.select iri (← source.hierarchy iri)
  selected.result
  if let some selection := selected.view.selection then
    print (Listing.lineage surroundings.colored selection.graph)

def expand (client : Client) (tree : CatalogTree) (id : String) : Run CatalogTree := do
  match tree.startExpand id with
  | (tree, .answered result) =>
    let _ ← result
    return tree
  | (tree, .fetching mark call) =>
    let reply ← match call with
      | .ok (some call) => perform (client.list call)
      | .ok none => pure (.ok [])
      | .error error => pure (.error error)
    let (tree, result, _) := tree.finishExpand mark reply
    let _ ← result
    return tree

def showCatalogs (surroundings : Surroundings) (config : Config) (ids : List String) :
    Run Unit := do
  let client ← Client.ofConfig config.backend
  let (tree, loaded, _) := CatalogTree.finishLoad { name := "catalogs" }
    (← perform client.catalogs)
  let _ ← loaded
  let tree ← ids.foldlM (expand client) tree
  print (Listing.catalog surroundings.colored tree.visibleRows)

/-- Follows a job until it is done.  Calls that find no answer left fail for ever. -/
def followJob (surroundings : Surroundings) (config : Config) (client : Client) (id : String) :
    Run Unit := do
  let call := client.job id
  let progress ← get
  let answers := progress.exchange.answers
  let script (index : Nat) : JobCall :=
    { ending := .reply (call.read ((answers[index]?).getD .unreachable)) }
  let job := (WatchedJob.launch id config.polling.interval).after script
    (WatchedJob.inTurn (2 * answers.length))
  let made := min job.poller.calls.length answers.length
  set { progress with
    exchange := {
      answers := answers.drop made
      requests := progress.exchange.requests ++ List.replicate made call.request }
    endless := job.watch.ended.isNone }
  job.watch.reported.forM fun status => print (Listing.job surroundings.colored status ++ "\n")
  if let some result := job.watch.ended then
    result

def showJob (surroundings : Surroundings) (config : Config) (id : String) (watch : Bool) :
    Run Unit := do
  let client ← Client.ofConfig config.backend
  if watch then followJob surroundings config client id
  else
    let status ← (← perform (client.job id))
    print (Listing.job surroundings.colored status ++ "\n")

def loadConfig (surroundings : Surroundings) : Option String → Run Config
  | some path => do Config.ofText (← surroundings.contents path)
  | none => return {}

def execute (surroundings : Surroundings) (invocation : Invocation) : Run Unit := do
  let config ← loadConfig surroundings invocation.config
  match invocation.command with
  | .tree concepts properties groupBySource groupByDomain =>
    showTree surroundings config concepts properties groupBySource groupByDomain
  | .lineage iri concepts => showLineage surroundings config iri concepts
  | .catalogs ids => showCatalogs surroundings config ids
  | .job id watch => showJob surroundings config id watch

structure Outcome where
  /-- The exit code; a run without one never ends. -/
  exit : Option UInt32
  output : String := ""
  errors : String := ""
  requests : List Request := []

def helpText : String :=
  "Browse semantic models, concept lineage and data catalogs\n\n" ++
  "Usage: semcat [--config <FILE>] <COMMAND>\n\n" ++
  "Commands:\n" ++
  "  tree      Print the concept tree\n" ++
  "  lineage   Lay out the lineage graph around a concept\n" ++
  "  catalogs  List catalogs, expanding the given node ids in order\n" ++
  "  job       Show the status of a training job\n"

def versionText : String := "semcat 0.4.0\n"

def errorLine (colored : Bool) (error : Error) : String :=
  Listing.paint colored .boldRed "error:" ++ " " ++ error.text ++ "\n"

def run (surroundings : Surroundings) (answers : List PeerAnswer) (arguments : List String) :
    Outcome :=
  match parse arguments with
  | .help => { exit := some 0, output := helpText }
  | .version => { exit := some 0, output := versionText }
  | .misuse =>
    { exit := some 2, errors := "error: the arguments make no sense\n\n" ++ helpText }
  | .run invocation =>
    let (result, progress) :=
      (execute surroundings invocation).run.run { exchange := { answers } }
    let requests := progress.exchange.requests
    match result with
    | .ok () =>
      { exit := if progress.endless then none else some 0, output := progress.output, requests }
    | .error error =>
      { exit := some 1, output := progress.output
        errors := errorLine surroundings.colored error, requests }

end CatalogBrowser.CommandLine
