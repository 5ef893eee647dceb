/-!
The arguments of the command line.

Options may stand before and after other arguments; `--` ends them.  The configuration file may be
given before or after the command, and the one after it counts.  Arguments are read from left to
right, and the first that asks for help or makes no sense decides.
-/

namespace CatalogBrowser.CommandLine

inductive Command where
  | tree (concepts : Option String) (properties : Option Bool)
    (groupBySource groupByDomain : Bool)
  | lineage (iri : String) (concepts : Option String)
  | catalogs (expand : List String)
  | job (id : String) (watch : Bool)
  deriving Repr, DecidableEq

structure Invocation where
  config : Option String := none
  command : Command
  deriving Repr, DecidableEq

inductive Parsed where
  | run (invocation : Invocation)
  | help
  | version
  | misuse
  deriving Repr, DecidableEq

inductive Arity where
  | flag
  | value
  | path
  | truth
  deriving Repr, DecidableEq

def Arity.needsValue : Arity → Bool
  | .value | .path => true
  | .flag | .truth => false

def Arity.admits : Arity → Option String → Bool
  | .path, some text => text ≠ ""
  | .truth, some text => text = "true" || text = "false"
  | _, _ => true

structure OptionSpec where
  name : String
  arity : Arity
  repeated : Bool := false
  deriving Repr, DecidableEq

structure CommandSpec where
  options : List OptionSpec := []
  arguments : Nat := 0
  deriving Repr, DecidableEq

structure Found where
  options : List (String × Option String) := []
  arguments : List String := []
  deriving Repr, DecidableEq

inductive Stop where
  | help
  | version
  | misuse
  deriving Repr, DecidableEq

def isDashed (argument : String) : Bool :=
  match argument.toList with
  | '-' :: _ :: _ => true
  | _ => false

def cutValue (argument : String) : String × Option String :=
  let chars := argument.toList.drop 2
  let name := String.ofList (chars.takeWhile (· ≠ '='))
  match chars.dropWhile (· ≠ '=') with
  | [] => (name, none)
  | _ :: value => (name, some (String.ofList value))

def Found.addOption (found : Found) (spec : OptionSpec) (value : Option String) :
    Except Stop Found :=
  if !spec.arity.admits value then .error .misuse
  else if !spec.repeated && found.options.any fun option => option.1 = spec.name then
    .error .misuse
  else .ok { found with options := found.options ++ [(spec.name, value)] }

def Found.addArguments (found : Found) (limit : Nat) (more : List String) : Except Stop Found :=
  if limit < found.arguments.length + more.length then .error .misuse
  else .ok { found with arguments := found.arguments ++ more }

def specOf? (specs : List OptionSpec) (argument name : String) : Option OptionSpec :=
  if argument.startsWith "--" then specs.find? fun spec => spec.name = name else none

/-! The options of the program -/

def configSpec : OptionSpec := ⟨"config", .path, false⟩

def conceptsSpec : OptionSpec := ⟨"concepts", .path, false⟩

def outerSpec : CommandSpec := { options := [configSpec] }

def commandSpecs : List (String × CommandSpec) :=
  [("tree", { options := [configSpec, conceptsSpec, ⟨"properties", .truth, false⟩,
      ⟨"group-by-source", .flag, false⟩, ⟨"group-by-domain", .flag, false⟩] }),
    ("lineage", { options := [configSpec, conceptsSpec], arguments := 1 }),
    ("catalogs", { options := [configSpec, ⟨"expand", .value, true⟩] }),
    ("job", { options := [configSpec, ⟨"watch", .flag, false⟩], arguments := 1 })]

/-! Reading -/

/-- Reads arguments up to the first plain one (`first`) or up to the end. -/
def scan (spec : CommandSpec) (first : Bool) (found : Found) (arguments : List String) :
    Except Stop (Found × List String) :=
  match arguments with
  | [] => .ok (found, [])
  | argument :: rest =>
    if argument = "--" then
      if first then .error .misuse
      else return (← found.addArguments spec.arguments rest, [])
    else if argument = "--help" || argument.startsWith "-h" then .error .help
    else if first && (argument = "--version" || argument.startsWith "-V") then .error .version
    else if isDashed argument then
      let (name, attached) := cutValue argument
      match specOf? spec.options argument name with
      | none => .error .misuse
      | some option =>
        match attached with
        | some value => do
          if option.arity = .flag then throw .misuse
          scan spec first (← found.addOption option (some value)) rest
        | none => do
          if option.arity = .flag then
            scan spec first (← found.addOption option none) rest
          else
            match _ : rest with
            | [] =>
              if option.arity.needsValue then throw .misuse
              return (← found.addOption option none, [])
            | value :: more =>
              if isDashed value then
                if option.arity.needsValue then throw .misuse
                scan spec first (← found.addOption option none) rest
              else scan spec first (← found.addOption option (some value)) more
    else if first then .ok (found, argument :: rest)
    else do scan spec first (← found.addArguments spec.arguments [argument]) rest
termination_by arguments.length
decreasing_by all_goals (subst_vars; simp only [List.length_cons]; omega)

def Found.value? (found : Found) (name : String) : Option String :=
  (found.options.lookup name).join

def Found.has (found : Found) (name : String) : Bool :=
  found.options.any fun option => option.1 = name

def Found.values (found : Found) (name : String) : List String :=
  found.options.filterMap fun option => if option.1 = name then option.2 else none

def Found.truth? (found : Found) (name : String) : Option Bool :=
  (found.options.lookup name).map fun value => value ≠ some "false"

def readCommand (name : String) (found : Found) : Except Stop Command := do
  match name, found.arguments with
  | "tree", [] =>
    return .tree (found.value? "concepts") (found.truth? "properties")
      (found.has "group-by-source") (found.has "group-by-domain")
  | "lineage", [iri] => return .lineage iri (found.value? "concepts")
  | "catalogs", [] => return .catalogs (found.values "expand")
  | "job", [id] => return .job id (found.has "watch")
  | _, _ => throw .misuse

def readInvocation (arguments : List String) : Except Stop Invocation := do
  let (outer, rest) ← scan outerSpec true {} arguments
  match rest with
  | [] => throw .misuse
  | "help" :: topics =>
    match topics with
    | [] => throw .help
    | [topic] =>
      throw (if (commandSpecs.lookup topic).isSome || topic = "help" then .help else .misuse)
    | _ => throw .misuse
  | name :: rest =>
    match commandSpecs.lookup name with
    | none => throw .misuse
    | some spec =>
      let (inner, _) ← scan spec false {} rest
      let command ← readCommand name inner
      return { config := (inner.value? "config").or (outer.value? "config"), command }

def parse (arguments : List String) : Parsed :=
  match readInvocation arguments with
  | .ok invocation => .run invocation
  | .error .help => .help
  | .error .version => .version
  | .error .misuse => .misuse

end CatalogBrowser.CommandLine
