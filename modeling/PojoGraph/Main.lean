import PojoGraph.Command.Run

/-!
# The program

Fetches the files that an invocation looks at, carries out its action, and prints the outcome.
-/

namespace PojoGraph

/-- The fault behind an error of the system. -/
def FileFault.ofError : IO.Error → FileFault
  | .noFileOrDirectory .. => .notFound
  | .inappropriateType _ 20 _ => .notDirectory
  | .inappropriateType _ 21 _ => .isDirectory
  | error => .other (toString error)

/-- The text of a file. -/
def fetch (path : String) : IO (Except FileFault String) := do
  try
    let bytes ← IO.FS.readBinFile path
    match String.fromUTF8? bytes with
    | some text => return .ok text
    | none => return .error .notText
  catch error => return .error (.ofError error)

/-- The files that an invocation looks at. -/
partial def fetchAll (invocation : Invocation)
    (known : List (String × Except FileFault String)) : IO FileView := do
  let files := FileView.ofList known
  match (invocation.pathsRead files).find? fun path => (known.lookup path).isNone with
  | none => return files
  | some path => fetchAll invocation ((path, ← fetch path) :: known)

/-- Carries out an action. -/
def Action.perform : Action → IO Outcome
  | finish outcome => return outcome
  | write path text outcome => do
    try
      IO.FS.writeFile path text
      return outcome none
    catch error => return outcome (some (.ofError error))

/-- How the program is used. -/
def usage : String :=
  "usage: [--config PATH] (validate [--input PATH] | inspect [--input PATH] [--format yaml|json]"
    ++ " | init [--force])"

end PojoGraph

open PojoGraph in
def main (arguments : List String) : IO UInt32 := do
  match Invocation.parse? arguments with
  | none =>
    IO.eprintln usage
    return 2
  | some invocation =>
    let outcome ← (invocation.act (← fetchAll invocation [])).perform
    IO.print outcome.out
    IO.eprint outcome.err
    return outcome.code.toUInt32
