import RoadNames.Check
import RoadNames.Log
import RoadNames.Network.Document
import RoadNames.Output
set_option autoImplicit false

namespace RoadNames

namespace Config

abbrev Environment := Table String String

namespace Path

def homeName : String := "HOME"

def dropSlashes (s : List Char) : List Char := (s.reverse.dropWhile (· = '/')).reverse

/-- The tilde alone, or before a slash, is the home directory; other users have none. -/
def expandHome (env : Environment) (path : List Char) : List Char :=
  match path with
  | '~' :: rest =>
    match env.get? homeName, rest with
    | some home, [] => if dropSlashes home.toList = [] then ['/'] else dropSlashes home.toList
    | some home, '/' :: _ => dropSlashes home.toList ++ rest
    | _, _ => path
  | _ => path

def isNameChar (c : Char) : Bool := c.isAlphanum || c = '_'

/-- The name of a variable behind a dollar sign, with its braces counted to its length. -/
def nameAfterDollar? (s : List Char) : Option (List Char × Nat) :=
  match s with
  | '\x7b' :: rest =>
    let name := rest.takeWhile (· ≠ '\x7d')
    if name.length < rest.length then some (name, name.length + 2) else none
  | _ =>
    let name := s.takeWhile isNameChar
    if name = [] then none else some (name, name.length)

/-- Replaces variables from the left. The count is of characters to pass over, as parts of the last
variable. -/
def expandFrom (env : Environment) : Nat → List Char → List Char
  | _, [] => []
  | skip + 1, _ :: rest => expandFrom env skip rest
  | 0, c :: rest =>
    if c = '$' then
      match nameAfterDollar? rest with
      | none => c :: expandFrom env 0 rest
      | some (name, length) =>
        match env.get? (String.ofList name) with
        | some value => value.toList ++ expandFrom env length rest
        | none => (c :: rest.take length) ++ expandFrom env length rest
    else c :: expandFrom env 0 rest

def expand (env : Environment) (path : String) : String :=
  String.ofList (expandFrom env 0 (expandHome env path.toList))

def mentioned : List Char → List String
  | [] => []
  | c :: rest =>
    match nameAfterDollar? rest with
    | some (name, _) => if c = '$' then String.ofList name :: mentioned rest else mentioned rest
    | none => mentioned rest

/-- The variables on whose values the expansion of a path can depend. -/
def variableNames (path : String) : List String := homeName :: mentioned path.toList

end Path

structure SearchDistance where
  value : Float
  unit : LengthUnit
  deriving Repr

def SearchDistance.toDistance (d : SearchDistance) : Except DistanceError Distance :=
  Distance.ofUnits d.value d.unit

structure CheckSettings where
  limit : SearchDistance := ⟨0.5, .miles⟩
  challenge : String := Check.defaultChallenge
  parent : Int := 0
  project : String := ""
  deriving Repr

inductive NetworkRef where
  | byPath (file : String) (format : Format) (mustExist : Bool)
  | byName (name : String)
  deriving DecidableEq, Repr

structure Region where
  lat : Float
  lon : Float
  radius : Float
  deriving Repr

structure RunSettings where
  workers : Int := 1
  seed : Int := 123
  fraction : Float := 1.0
  region : Option Region := none
  deriving Repr

structure LogSettings where
  level : Log.Level := .info
  debug : Bool := false
  sampleEvery : Int := 1000
  deriving DecidableEq, Repr

def SearchDistance.toJson (d : SearchDistance) : Json :=
  .obj [("value", .float d.value), ("unit", .str d.unit.name)]

def CheckSettings.toJson (c : CheckSettings) : Json :=
  .obj [
    ("max_search_distance", c.limit.toJson), ("challenge_name", .str c.challenge),
    ("parent_id", .int c.parent), ("project_name", .str c.project)]

def NetworkRef.toJson : NetworkRef → Json
  | byPath file format mustExist =>
    .obj [("by", .str "path"), ("file", .str file), ("fmt", .str format.name),
      ("must_exist", .bool mustExist)]
  | byName name => .obj [("by", .str "name"), ("name", .str name)]

def Region.toJson (r : Region) : Json :=
  .obj [("lat", .float r.lat), ("lon", .float r.lon), ("radius_m", .float r.radius)]

def RunSettings.toJson (r : RunSettings) : Json :=
  .obj [
    ("workers", .int r.workers), ("seed", .int r.seed), ("sample_fraction", .float r.fraction),
    ("region", (r.region.map Region.toJson).getD .null)]

def LogSettings.toJson (l : LogSettings) : Json :=
  .obj [
    ("level", .str l.level.name), ("debug", .bool l.debug), ("sample_every", .int l.sampleEvery)]

def outputJson : Destination → Json
  | .jsonl file => .obj [("kind", .str "jsonl"), ("file", Json.ofText? file)]
  | .memory => .obj [("kind", .str "memory")]

end Config

structure Config where
  name : String
  run : String := "local"
  network : Config.NetworkRef
  check : Config.CheckSettings := {}
  runs : Config.RunSettings := {}
  log : Config.LogSettings := {}
  output : Destination := .jsonl none
  deriving Repr

def Config.toJson (c : Config) : Json :=
  .obj [
    ("name", .str c.name), ("run_id", .str c.run), ("graph", c.network.toJson),
    ("check", c.check.toJson), ("run", c.runs.toJson), ("log", c.log.toJson),
    ("output", Config.outputJson c.output)]

end RoadNames
