import RoadNames.Run.Command
set_option autoImplicit false

namespace RoadNames.Main

open Storage

def isDirectory (path : String) : IO Bool := do
  try
    let real ← IO.FS.realPath path
    real.isDir
  catch _ => return false

def bringFile (files : Files) (path : String) : IO Files := do
  let mut files := files
  for stage in Files.stages path do
    if ← isDirectory stage then
      files := files.addDirectory stage
  try
    return files.write path (← IO.FS.readBinFile path)
  catch _ => return files

def bringVariables (names : List String) : IO Config.Environment := do
  let mut env : Config.Environment := []
  for name in names do
    if let some value ← IO.getEnv name then
      env := env.set name value
  return env

def bring (path : String) : IO (Config.Environment × Files) := do
  let files ← bringFile .empty path
  let document := (Command.readDocument files path).toOption.getD .null
  let env ← bringVariables ((Command.writtenPaths document).flatMap Config.Path.variableNames)
  match Command.readConfig env files path with
  | .error _ => return (env, files)
  | .ok c => return (env, ← (Command.filesOf c).foldlM bringFile files)

/-- Writes to the end of a file what it has more than before. -/
def deliver (before after : Files) (path : String) : IO Unit := do
  if let some bytes := Files.added before after path then
    IO.FS.withFile path .append fun handle => handle.write bytes

def report (r : CommandResult) (elapsed : Float) : IO UInt32 := do
  for warning in r.warnings do
    IO.eprintln warning.message
  for record in r.records (.float elapsed) do
    IO.eprintln (Log.line record)
  IO.print r.output
  match r.exit with
  | .usage =>
    IO.eprintln Command.usage
    return 1
  | .code n => return n.toUInt32
  | .failed error =>
    IO.eprintln error.message
    return 1

def run (arguments : List String) : IO UInt32 := do
  let (env, files) ← match arguments with
    | [path] => bring path
    | _ => pure ([], .empty)
  let began ← IO.monoNanosNow
  let r := Command.run env files arguments
  if let .ok c := Command.readConfig env files (arguments.headD "") then
    if let some path := c.output.file? then
      deliver files r.files path
  let ended ← IO.monoNanosNow
  report r (Float.ofNat (ended - began) / 1000000.0)

end RoadNames.Main

def main (arguments : List String) : IO UInt32 := RoadNames.Main.run arguments
