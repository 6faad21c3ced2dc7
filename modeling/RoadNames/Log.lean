import RoadNames.Json.Value
set_option autoImplicit false

/-!
Which events reach the log, and in what form. The first settings that are put to use fix its level for good; the
progress of single segments is logged only in debug mode, one segment in so many.
-/

namespace RoadNames.Log

inductive Level where
  | debug
  | info
  | warning
  | error
  | critical
  deriving DecidableEq, Repr

namespace Level

def all : List Level := [debug, info, warning, error, critical]

def name : Level → String
  | debug => "DEBUG"
  | info => "INFO"
  | warning => "WARNING"
  | error => "ERROR"
  | critical => "CRITICAL"

def rank : Level → Int
  | debug => 10
  | info => 20
  | warning => 30
  | error => 40
  | critical => 50

def ofName? (name : String) : Option Level := all.find? fun l => l.name = name

end Level

inductive Event where
  | runStart (candidates workers : Int)
  | segmentStart (id : Json) (position : Int)
  | flag (id name : Json) (flagged : List (Json × Json)) (position : Int)
  | failure (id : Json) (text kind : String) (extra : Json.Fields)
  | runEnd (checked flagged errors : Int) (elapsed : Json)

namespace Event

def level : Event → Level
  | runStart .. | flag .. | runEnd .. => .info
  | segmentStart .. => .debug
  | failure .. => .error

def title : Event → String
  | runStart .. => "run_start"
  | segmentStart .. => "segment_start"
  | flag .. => "flag"
  | failure .. => "check_error"
  | runEnd .. => "run_end"

def flaggedJson (entry : Json × Json) : Json := .obj [("id", entry.1), ("name", entry.2)]

def fields : Event → Json.Fields
  | runStart candidates workers => [("candidates", .int candidates), ("workers", .int workers)]
  | segmentStart id position => [("seq", .int position), ("segment_id", id)]
  | flag id name flagged position =>
    [("seq", .int position), ("segment_id", id), ("name", name),
     ("flagged", .arr (flagged.map flaggedJson))]
  | failure id text kind extra =>
    [("segment_id", id), ("error", .str text), ("error_type", .str kind)] ++ extra
  | runEnd checked flagged errors elapsed =>
    [("checked", .int checked), ("flagged", .int flagged), ("errors", .int errors),
     ("wall_ms", elapsed)]

/-- Names that a failure gives a meaning of its own, so that no further field can have them. -/
def reserved : List String :=
  ["self", "segment", "exc", "level", "msg", "segment_id", "error", "error_type"]

def failure? (id : Json) (text kind : String) (extra : Json.Fields) : Option Event :=
  if extra.any fun f => reserved.contains f.1 then none else some (failure id text kind extra)

end Event

structure Settings where
  run : String := "local"
  debug : Bool := false
  sampleEvery : Int := 1000

/-- The log shared by all settings, by the least rank that it takes, once that is fixed. -/
structure Logger where
  threshold : Option Int
  deriving DecidableEq, Repr

namespace Logger

def name : String := "road_spelling"

def fresh : Logger := ⟨none⟩

def unsetRank : Int := 0

def rankNames : Table String Int :=
  (Level.all.map fun l => (l.name, l.rank)) ++
    [("WARN", Level.warning.rank), ("FATAL", Level.critical.rank), ("NOTSET", unsetRank)]

def readRank (level : Json) : Except LookupError Int :=
  match level with
  | .int n => .ok n
  | .bool b => .ok (if b then 1 else 0)
  | .str _ => level.lookUp rankNames.get?
  | _ => .error .improper

def levelError (e : LookupError) : String := e.message "Unknown level:"

def withRank (l : Logger) (rank : Int) : Logger := ⟨some (l.threshold.getD rank)⟩

def withLevel (l : Logger) (level : Level) : Logger := l.withRank level.rank

/-- The first level counts; later ones are not even looked at. -/
def configure (l : Logger) (level : Json) : Except LookupError Logger :=
  match l.threshold with
  | some _ => .ok l
  | none =>
    match readRank level with
    | .error e => .error e
    | .ok rank => .ok (l.withRank rank)

/-- A log whose level is set to none in particular takes warnings and what is above them. -/
def admits (l : Logger) (level : Level) : Bool :=
  match l.threshold with
  | none => false
  | some rank => (if rank = unsetRank then Level.warning.rank else rank) ≤ level.rank

end Logger

namespace Settings

def selects (s : Settings) : Event → Bool
  | .segmentStart _ position => s.debug && position % max 1 s.sampleEvery == 0
  | _ => true

end Settings

/-- The record of an event: what kind it is, then its fields. A field named like an earlier one
replaces it in its place. -/
def record (s : Settings) (e : Event) : Json.Fields :=
  Table.setAll
    [("level", .str e.level.name), ("msg", .str e.title), ("logger", .str Logger.name)]
    (Table.setAll [("run_id", .str s.run)] e.fields)

def records (l : Logger) (s : Settings) (events : List Event) : List Json.Fields :=
  (events.filter fun e => s.selects e && l.admits e.level).map (record s)

def line (fields : Json.Fields) : String := (Json.obj fields).document

end RoadNames.Log
