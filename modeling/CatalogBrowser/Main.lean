import CatalogBrowser.CommandLine.Run

/-!
The program that is run from a command line.

It reads the files that its arguments name and runs the command.  It has no way to reach a
backend, so every request stays without an answer.
-/

open CatalogBrowser

namespace CatalogBrowser.CommandLine

def fileError (error : IO.Error) : Error :=
  match error with
  | .noFileOrDirectory .. => .io "No such file or directory (os error 2)"
  | error => .io (toString error)

def paths (arguments : List String) : List String :=
  match parse arguments with
  | .run invocation =>
    let concepts := match invocation.command with
      | .tree concepts .. => concepts
      | .lineage _ concepts => concepts
      | .catalogs _ | .job .. => none
    invocation.config.toList ++ concepts.toList
  | .help | .version | .misuse => []

def readPath (path : String) : IO (String × Except Error String) := do
  try
    return (path, .ok (← IO.FS.readFile path))
  catch error =>
    return (path, .error (fileError error))

partial def waitForEver : IO UInt32 := do
  IO.sleep 1000
  waitForEver

end CatalogBrowser.CommandLine

open CatalogBrowser.CommandLine in
def main (arguments : List String) : IO UInt32 := do
  let files ← (paths arguments).mapM readPath
  let contents (path : String) : Except Error String :=
    (files.lookup path).getD (.error (.io "No such file or directory (os error 2)"))
  let colored := (← IO.getEnv "CLICOLOR_FORCE").isSome
  let outcome := run { contents, colored } [] arguments
  IO.print outcome.output
  IO.eprint outcome.errors
  match outcome.exit with
  | some code => return code
  | none => waitForEver
