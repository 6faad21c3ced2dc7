import RoadNames.Config.Validation
import RoadNames.Run.Runner
import RoadNames.Storage
set_option autoImplicit false

namespace RoadNames

open Storage

inductive SetupError where
  | access (error : AccessError)
  | distance (error : DistanceError)
  | place (error : LocationError)

def SetupError.message : SetupError → String
  | .access error => error.message
  | .distance error => error.message
  | .place error => error.message

structure Application where
  runner : Runner
  recorder : Recorder
  output : Destination
  logger : Log.Logger
  settings : Option Log.Settings

namespace Application

def samplingKey : Random.StreamKey := .ofParts "sampling" []

def settingsOf (c : Config) : Log.Settings :=
  { run := c.run, debug := c.log.debug, sampleEvery := c.log.sampleEvery }

def openOutput (files : Files) (d : Destination) : Except FileError Files :=
  match d.file? with
  | some path => files.openToAppend path
  | none => .ok files

def regionOf (r : Config.Region) : Except SetupError (Location × Distance) :=
  match Location.ofDegrees r.lat r.lon with
  | .error e => .error (.place e)
  | .ok center =>
    match Distance.ofUnits r.radius .meters with
    | .error e => .error (.distance e)
    | .ok radius => .ok (center, radius)

def runnerOf (c : Config) (g : Network) : Except SetupError Runner :=
  match c.check.limit.toDistance with
  | .error e => .error (.distance e)
  | .ok limit =>
    let base : Runner :=
      { network := g
        check := ⟨limit, c.check.challenge⟩
        workers := c.runs.workers
        parent := c.check.parent
        project := c.check.project
        fraction := c.runs.fraction
        generator := (Random.Streams.start c.runs.seed c.run).generator samplingKey }
    match c.runs.region with
    | none => .ok base
    | some region =>
      match regionOf region with
      | .error e => .error e
      | .ok region => .ok { base with region := some region }

def build (l : Library) (given : Library.Given) (c : Config) (logged : Bool) :
    Access SetupError Application :=
  match l.resolve given (some c.network) with
  | ⟨l, warnings, .error e⟩ => ⟨l, warnings, .error (.access e)⟩
  | ⟨l, warnings, .ok h⟩ =>
    match openOutput l.files c.output with
    | .error e => ⟨l, warnings, .error (.access (.file e))⟩
    | .ok files =>
      let l := { l with files := files }
      match runnerOf c h.network with
      | .error e => ⟨l, warnings, .error e⟩
      | .ok runner =>
        ⟨l, warnings, .ok {
          runner := runner
          recorder := .ofSinks [c.output.sink]
          output := c.output
          logger := if logged then Log.Logger.fresh.withLevel c.log.level else .fresh
          settings := if logged then some (settingsOf c) else none }⟩

def run (a : Application) : Except RunError (Report × Application) :=
  match a.runner.run a.recorder with
  | .error e => .error e
  | .ok (report, runner) => .ok (report, { a with runner := runner, recorder := report.recorder })

def records (a : Application) (report : Report) (elapsed : Json) : List Json.Fields :=
  match a.settings with
  | some settings => Log.records a.logger settings (report.history elapsed)
  | none => []

def outputText (a : Application) : String :=
  a.recorder.sinks.foldl (fun text s => text ++ s.text) ""

end Application

inductive CommandError where
  | file (error : FileError)
  | notText
  | notDocument
  | invalid (faults : List Config.Fault)
  | setup (error : SetupError)
  | run (error : RunError)

def CommandError.message : CommandError → String
  | .file error => error.message
  | .notText => "the configuration is not valid UTF-8"
  | .notDocument => "the configuration is not valid JSON"
  | .invalid faults => "invalid configuration: " ++ ", ".intercalate (faults.map Config.Fault.message)
  | .setup error => error.message
  | .run error => error.message

inductive Exit where
  | usage
  | code (n : Nat)
  | failed (error : CommandError)

/-- What the command leaves behind: how it ended, the files, the text on standard output, warnings,
and the run, if there was one. -/
structure CommandResult where
  exit : Exit
  files : Files
  output : String := ""
  warnings : List Warning := []
  done : Option (Application × Report) := none

namespace Command

def usage : String := "usage: python main.py CONFIG.json"

def readDocument (files : Files) (path : String) : Except CommandError Json :=
  match files.read path with
  | .error e => .error (.file e)
  | .ok bytes =>
    match String.fromUTF8? bytes with
    | none => .error .notText
    | some text =>
      match Json.read text.toList with
      | .error .malformed => .error .notDocument
      | .error (.longInteger digits) => .error (.setup (.access (.load (.longInteger digits))))
      | .ok document => .ok document

/-- The paths in a configuration as they are written, before variables are replaced. -/
def writtenPaths (document : Json) : List String :=
  ["graph", "output"].filterMap fun key =>
    match (document.field? key).bind (·.field? "file") with
    | some (.str path) => some path
    | _ => none

def filesOf (c : Config) : List String :=
  (match c.network with
    | .byPath file _ _ => [file]
    | .byName _ => []) ++ c.output.file?.toList

def readConfig (env : Config.Environment) (files : Files) (path : String) :
    Except CommandError Config :=
  match readDocument files path with
  | .error e => .error e
  | .ok document =>
    match Config.read env document with
    | .invalid faults => .error (.invalid faults)
    | .valid c => .ok c

def runConfig (files : Files) (c : Config) : CommandResult :=
  match Application.build (.ofFiles files) ⟨some [], none⟩ c true with
  | ⟨l, warnings, .error e⟩ =>
    { exit := .failed (.setup e), files := l.files, warnings := warnings }
  | ⟨l, warnings, .ok a⟩ =>
    match a.run with
    | .error e => { exit := .failed (.run e), files := l.files, warnings := warnings }
    | .ok (report, a) =>
      { exit := .code (if report.summary.errors = 0 then 0 else 1)
        files := match a.output.file? with
          | some path => l.files.append path a.outputText
          | none => l.files
        output := if a.output = .memory || a.output.file?.isSome then "" else a.outputText
        warnings := warnings
        done := some (a, report) }

def run (env : Config.Environment) (files : Files) (arguments : List String) : CommandResult :=
  match arguments with
  | [path] =>
    match readConfig env files path with
    | .error e => { exit := .failed e, files := files }
    | .ok c => runConfig files c
  | _ => { exit := .usage, files := files }

end Command

namespace CommandResult

def records (r : CommandResult) (elapsed : Json) : List Json.Fields :=
  match r.done with
  | some (a, report) => a.records report elapsed
  | none => []

end CommandResult

end RoadNames
