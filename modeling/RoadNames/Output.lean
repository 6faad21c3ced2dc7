import RoadNames.Json.Value
set_option autoImplicit false

namespace RoadNames

namespace Output

def line (payload : Json) : List Char := Json.write Json.documentStyle payload ++ ['\n']

def linesText (payloads : List Json) : List Char := payloads.flatMap line

/-- The pieces of a text between line ends. The last one is empty if the text ends a line. -/
def splitLines : List Char → List (List Char)
  | [] => [[]]
  | c :: rest =>
    if c = '\n' then [] :: splitLines rest
    else
      match splitLines rest with
      | [] => [[c]]
      | first :: more => (c :: first) :: more

end Output

inductive WriteFault where
  | device
  | wrongType
  | badValue
  /-- A fault of the program and not of the sink. -/
  | defect (what : String)
  deriving DecidableEq, Repr

def WriteFault.message : WriteFault → String
  | device => "the device failed"
  | wrongType => "the payload has the wrong type"
  | badValue => "the payload has a bad value"
  | defect what => what

/-- Faults that cost one payload in one sink and nothing else. -/
def WriteFault.isContained : WriteFault → Bool
  | defect _ => false
  | _ => true

inductive Target where
  | memory
  | stream (standard : Bool)
  deriving DecidableEq, Repr

structure Sink where
  label : String
  target : Target
  /-- Which writes fail, counted from zero, and of which payloads. -/
  faults : Nat → Json → Option WriteFault := fun _ _ => none
  attempts : Nat := 0
  received : List Json := []
  closed : Bool := false

namespace Sink

def memory : Sink := { label := "MemorySink", target := .memory }

/-- A line is written as a whole or, if the payload is no document that can be written, not at all. -/
def lineFault (_ : Nat) (payload : Json) : Option WriteFault :=
  if payload.isWritable then none else some .badValue

def stream : Sink := { label := "JsonlSink", target := .stream false, faults := lineFault }

def standardOutput : Sink := { label := "JsonlSink", target := .stream true, faults := lineFault }

def broken (label : String) (fault : WriteFault) : Sink :=
  { label := label, target := .memory, faults := fun _ _ => some fault }

def write (s : Sink) (payload : Json) : Option WriteFault × Sink :=
  match s.faults s.attempts payload with
  | some fault => (some fault, { s with attempts := s.attempts + 1 })
  | none => (none, { s with attempts := s.attempts + 1, received := s.received ++ [payload] })

def text (s : Sink) : String := String.ofList (Output.linesText s.received)

/-- Streams are closed, but standard output stays open. -/
def close (s : Sink) : Sink :=
  match s.target with
  | .stream false => { s with closed := true }
  | _ => s

end Sink

inductive Destination where
  | jsonl (file : Option String)
  | memory
  deriving DecidableEq, Repr

namespace Destination

def ofKind? (file : Option String) (kind : String) : Option Destination :=
  if kind = "jsonl" then some (jsonl file)
  else if kind = "memory" then some memory
  else none

def read (kind : Json) (file : Option String) : Except LookupError Destination :=
  kind.lookUp (ofKind? file)

def errorText (e : LookupError) : String := e.message "Unknown output kind"

/-- The file that payloads go to. An empty name is no file. -/
def file? : Destination → Option String
  | jsonl (some name) => if name = "" then none else some name
  | _ => none

def sink (d : Destination) : Sink :=
  match d with
  | memory => .memory
  | jsonl _ => if d.file?.isSome then .stream else .standardOutput

end Destination

structure Failure where
  sink : String
  task : Json

def Failure.message (f : Failure) : String :=
  "sink " ++ f.sink ++ " failed for task " ++ f.task.plainText

structure Recorder where
  sinks : List Sink
  failures : List Failure

namespace Recorder

/-- Without sinks, payloads go to standard output. -/
def ofSinks (sinks : List Sink) : Recorder :=
  ⟨if sinks.isEmpty then [.standardOutput] else sinks, []⟩

def failed (r : Recorder) : Nat := r.failures.length

def taskOf (payload : Json) : Json := (payload.field? "name").getD .null

/-- Writes to one sink after the other, up to a fault that cannot be contained. -/
def writeAll (payload : Json) : List Sink → List Sink × List Failure × Option WriteFault
  | [] => ([], [], none)
  | s :: rest =>
    let (fault, written) := s.write payload
    match fault with
    | none =>
      let (others, failures, stop) := writeAll payload rest
      (written :: others, failures, stop)
    | some fault =>
      if fault.isContained then
        let (others, failures, stop) := writeAll payload rest
        (written :: others, ⟨s.label, taskOf payload⟩ :: failures, stop)
      else (written :: rest, [], some fault)

def emit (r : Recorder) (payload : Json) : Option WriteFault × Recorder :=
  let (sinks, failures, stop) := writeAll payload r.sinks
  (stop, ⟨sinks, r.failures ++ failures⟩)

def close (r : Recorder) : Recorder := { r with sinks := r.sinks.map Sink.close }

end Recorder

end RoadNames
