import MapQuery.CommandLine

/-!
# The program

Runs the command line on the environment and the files of the machine.
-/

set_option autoImplicit false

namespace MapQuery.CommandLine

/-- The text of a file, if it can be read. -/
def readText? (path : String) : IO (Option String) := do
  try
    let text ← IO.FS.readFile path
    return some text
  catch _ => return none

/-- The environment's value of every setting that has one. -/
def environment : IO (List (Text × Text)) := do
  let names : List Text := [
    Settings.debounceName, Settings.wholeSecondsName, Settings.geometryColumnName,
    Settings.idColumnName]
  let values ← names.mapM fun name => do
    let value ← IO.getEnv (String.ofList name)
    return value.map fun v => (name, v.toList)
  return values.filterMap id

/-- The path of the workspace that some arguments name. -/
def workspacePath? (args : List Text) : Option Text :=
  (command? args).map fun
    | .resolve target => target.workspace
    | .compile target _ => target.workspace

/-- Runs the command line and gives the exit code. -/
def runOnMachine (args : List Text) : IO UInt32 := do
  let settings ← environment
  let file ← match workspacePath? args with
    | none => pure none
    | some path => readText? (String.ofList path)
  match run args (fun name => settings.lookup name) fun _ => file.map String.toList with
  | .ok text =>
    IO.print (String.ofList text)
    return 0
  | .error failure =>
    match failure.message? with
    | some message => IO.eprintln ("Error: " ++ String.ofList message)
    | none => IO.eprintln "usage: layerquery (resolve | compile) --workspace FILE --layer ID ..."
    return failure.exitCode.toUInt32

end MapQuery.CommandLine

def main (args : List String) : IO UInt32 :=
  MapQuery.CommandLine.runOnMachine (args.map String.toList)
