import RoadNames.Config.Model
set_option autoImplicit false

/-!
Checking documents. All that is wrong is found, each fault with the path of the value at fault.
-/

namespace RoadNames.Config

inductive FaultKind where
  | missing
  | extraForbidden
  | modelType
  | modelAttributesType
  | unionTagNotFound
  | unionTagInvalid
  | stringType
  | literalError
  | intType
  | intParsing
  | intParsingSize
  | intFromFloat
  | finiteNumber
  | floatType
  | floatParsing
  | boolType
  | boolParsing
  | greaterThan
  | greaterThanEqual
  | lessThanEqual
  deriving DecidableEq, Repr

def FaultKind.name : FaultKind → String
  | missing => "missing"
  | extraForbidden => "extra_forbidden"
  | modelType => "model_type"
  | modelAttributesType => "model_attributes_type"
  | unionTagNotFound => "union_tag_not_found"
  | unionTagInvalid => "union_tag_invalid"
  | stringType => "string_type"
  | literalError => "literal_error"
  | intType => "int_type"
  | intParsing => "int_parsing"
  | intParsingSize => "int_parsing_size"
  | intFromFloat => "int_from_float"
  | finiteNumber => "finite_number"
  | floatType => "float_type"
  | floatParsing => "float_parsing"
  | boolType => "bool_type"
  | boolParsing => "bool_parsing"
  | greaterThan => "greater_than"
  | greaterThanEqual => "greater_than_equal"
  | lessThanEqual => "less_than_equal"

structure Fault where
  path : List String
  kind : FaultKind
  deriving DecidableEq, Repr

def Fault.message (f : Fault) : String := ".".intercalate f.path ++ ": " ++ f.kind.name

inductive Checked (α : Type) where
  | valid (value : α)
  | invalid (faults : List Fault)

namespace Checked

variable {α β : Type}

def fault (kind : FaultKind) : Checked α := invalid [⟨[], kind⟩]

def faults : Checked α → List Fault
  | valid _ => []
  | invalid fs => fs

def map (f : α → β) : Checked α → Checked β
  | valid a => valid (f a)
  | invalid fs => invalid fs

/-- Applies a checked function to a checked value. The faults of both count. -/
def apply (f : Checked (α → β)) (a : Checked α) : Checked β :=
  match f, a with
  | valid f, valid a => valid (f a)
  | valid _, invalid fs => invalid fs
  | invalid fs, valid _ => invalid fs
  | invalid fs, invalid gs => invalid (fs ++ gs)

instance : Functor Checked where
  map := map

instance : Seq Checked where
  seq f a := apply f (a ())

def under (key : String) : Checked α → Checked α
  | valid a => valid a
  | invalid fs => invalid (fs.map fun f => { f with path := key :: f.path })

def ensure (condition : α → Bool) (kind : FaultKind) : Checked α → Checked α
  | valid a => if condition a then valid a else fault kind
  | invalid fs => invalid fs

def required (fields : Json.Fields) (key : String) (read : Json → Checked α) : Checked α :=
  match fields.get? key with
  | some v => (read v).under key
  | none => (fault .missing).under key

def optional (fields : Json.Fields) (key : String) (default : α) (read : Json → Checked α) :
    Checked α :=
  match fields.get? key with
  | some v => (read v).under key
  | none => valid default

def unknownFields (known : List String) (fields : Json.Fields) : List Fault :=
  (fields.filter fun f => !known.contains f.1).map fun f => ⟨[f.1], .extraForbidden⟩

def object (known : List String) (read : Json.Fields → Checked α) (v : Json) : Checked α :=
  match v with
  | .obj fields =>
    match read fields, unknownFields known fields with
    | c, [] => c
    | c, extra => invalid (c.faults ++ extra)
  | _ => fault .modelType

def nullable (read : Json → Checked α) (v : Json) : Checked (Option α) :=
  if v.isNull then valid none else (read v).map some

/-- An object whose kind is told by one of its fields. The kind is part of the path of its faults. -/
def tagged (tag : String) (readers : Table String (Json → Checked α)) (v : Json) : Checked α :=
  match v with
  | .obj fields =>
    match Table.get? fields tag with
    | none => fault .unionTagNotFound
    | some (.str name) =>
      match readers.get? name with
      | some read => (read v).under name
      | none => fault .unionTagInvalid
    | some _ => fault .unionTagInvalid
  | _ => fault .modelAttributesType

end Checked

open RoadNames.Decimal RoadNames.Text

def readString (v : Json) : Checked String :=
  match v with
  | .str s => .valid s
  | _ => .fault .stringType

def readName {α : Type} (find : String → Option α) (v : Json) : Checked α :=
  match v with
  | .str s =>
    match find s with
    | some a => .valid a
    | none => .fault .literalError
  | _ => .fault .literalError

def dropZeroFraction (s : List Char) : List Char :=
  let whole := s.takeWhile (· ≠ '.')
  let zeros := (s.dropWhile (· ≠ '.')).drop 1
  if whole.getLast?.any isPlainDigit && zeros.all (· = '0') then whole else s

/-- Doubles are taken for integers between these bounds, themselves excluded. -/
def integerBound : Float := 9223372036854775808.0

def readInt (v : Json) : Checked Int :=
  match v with
  | .int n => .valid n
  | .bool b => .valid (if b then 1 else 0)
  | .float x =>
    match truncate? x with
    | none => .fault .finiteNumber
    | some n =>
      if !isIntegral x then .fault .intFromFloat
      else if -integerBound < x && x < integerBound then .valid n
      else .fault .intParsingSize
  | .str s =>
    if digitLimit < (trim s.toList).length then .fault .intParsingSize
    else
      match readInt? asciiDigit? (dropZeroFraction (trim s.toList)) with
      | some n => .valid n
      | none => .fault .intParsing
  | _ => .fault .intType

def readFloat (v : Json) : Checked Float :=
  match v with
  | .int n => if isFinite (floatOfInt n) then .valid (floatOfInt n) else .fault .floatType
  | .bool b => .valid (if b then 1 else 0)
  | .float x => .valid x
  | .str s =>
    match readFloat? asciiDigit? s.toList with
    | some x => .valid x
    | none => .fault .floatParsing
  | _ => .fault .floatType

def noWords : List String := ["0", "off", "f", "false", "n", "no"]

def yesWords : List String := ["1", "on", "t", "true", "y", "yes"]

def readBool (v : Json) : Checked Bool :=
  match v with
  | .bool b => .valid b
  | .int n => if n = 0 then .valid false else if n = 1 then .valid true else .fault .boolParsing
  | .float x => if x == 0 then .valid false else if x == 1 then .valid true else .fault .boolType
  | .str s =>
    if noWords.contains s.toLower then .valid false
    else if yesWords.contains s.toLower then .valid true
    else .fault .boolParsing
  | _ => .fault .boolType

open Checked

def readAtLeastOne (v : Json) : Checked Int := (readInt v).ensure (1 ≤ ·) .greaterThanEqual

def readDistance : Json → Checked SearchDistance :=
  object ["value", "unit"] fun fields =>
    SearchDistance.mk
      <$> required fields "value" (fun v => (readFloat v).ensure (0 ≤ ·) .greaterThanEqual)
      <*> optional fields "unit" .meters (readName LengthUnit.ofName?)

def readCheck : Json → Checked CheckSettings :=
  object ["max_search_distance", "challenge_name", "parent_id", "project_name"] fun fields =>
    let default : CheckSettings := {}
    CheckSettings.mk
      <$> optional fields "max_search_distance" default.limit readDistance
      <*> optional fields "challenge_name" default.challenge readString
      <*> optional fields "parent_id" default.parent readInt
      <*> optional fields "project_name" default.project readString

def readByPath (env : Environment) : Json → Checked NetworkRef :=
  object ["by", "file", "fmt", "must_exist"] fun fields =>
    NetworkRef.byPath
      <$> (required fields "file" readString).map (Path.expand env)
      <*> optional fields "fmt" .geojson (readName Format.ofName?)
      <*> optional fields "must_exist" true readBool

def readByName : Json → Checked NetworkRef :=
  object ["by", "name"] fun fields => NetworkRef.byName <$> required fields "name" readString

def readNetworkRef (env : Environment) : Json → Checked NetworkRef :=
  tagged "by" [("path", readByPath env), ("name", readByName)]

/-- A number within bounds. The upper one is looked at first, and an undefined number is within none. -/
def readBetween (low high : Float) (v : Json) : Checked Float :=
  ((readFloat v).ensure (· ≤ high) .lessThanEqual).ensure (low ≤ ·) .greaterThanEqual

def readPositive (v : Json) : Checked Float := (readFloat v).ensure (0 < ·) .greaterThan

def readRegion : Json → Checked Region :=
  object ["lat", "lon", "radius_m"] fun fields =>
    Region.mk
      <$> required fields "lat" (readBetween (-90) 90)
      <*> required fields "lon" (readBetween (-180) 180)
      <*> required fields "radius_m" readPositive

def readFraction (v : Json) : Checked Float :=
  ((readFloat v).ensure (· ≤ 1) .lessThanEqual).ensure (0 < ·) .greaterThan

def readRun : Json → Checked RunSettings :=
  object ["workers", "seed", "sample_fraction", "region"] fun fields =>
    let default : RunSettings := {}
    RunSettings.mk
      <$> optional fields "workers" default.workers readAtLeastOne
      <*> optional fields "seed" default.seed readInt
      <*> optional fields "sample_fraction" default.fraction readFraction
      <*> optional fields "region" default.region (nullable readRegion)

/-- All levels but the highest can be asked for. -/
def findLevel? (name : String) : Option Log.Level :=
  (Log.Level.ofName? name).filter (· ≠ .critical)

def readLog : Json → Checked LogSettings :=
  object ["level", "debug", "sample_every"] fun fields =>
    let default : LogSettings := {}
    LogSettings.mk
      <$> optional fields "level" default.level (readName findLevel?)
      <*> optional fields "debug" default.debug readBool
      <*> optional fields "sample_every" default.sampleEvery readAtLeastOne

def readLines (env : Environment) : Json → Checked Destination :=
  object ["kind", "file"] fun fields =>
    Destination.jsonl
      <$> optional fields "file" none fun v => (nullable readString v).map (·.map (Path.expand env))

def readMemory : Json → Checked Destination := object ["kind"] fun _ => valid .memory

def readOutput (env : Environment) : Json → Checked Destination :=
  tagged "kind" [("jsonl", readLines env), ("memory", readMemory)]

def read (env : Environment) : Json → Checked Config :=
  object ["name", "run_id", "graph", "check", "run", "log", "output"] fun fields =>
    Config.mk
      <$> required fields "name" readString
      <*> optional fields "run_id" "local" readString
      <*> required fields "graph" (readNetworkRef env)
      <*> optional fields "check" {} readCheck
      <*> optional fields "run" {} readRun
      <*> optional fields "log" {} readLog
      <*> optional fields "output" (.jsonl none) (readOutput env)

end RoadNames.Config
