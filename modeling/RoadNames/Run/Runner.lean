import RoadNames.Log
import RoadNames.Output
import RoadNames.Random
import RoadNames.Task
set_option autoImplicit false

/-!
A run checks the start segments one after the other. Each has a walk of its own: one that fails costs
its own start and no other. Flags become tasks for the recorder.
-/

namespace RoadNames

structure Summary where
  checked : Nat := 0
  flagged : Nat := 0
  errors : Nat := 0
  failedIds : List Int := []
  deriving DecidableEq, Repr

inductive RunError where
  | sample (error : Random.SampleError)
  | payload (error : PayloadError)
  | write (fault : WriteFault)

def RunError.message : RunError → String
  | .sample error => error.message
  | .payload error => error.message
  | .write fault => fault.message

structure Runner where
  network : Network
  check : Check
  workers : Int := 1
  parent : Int := 0
  project : String := ""
  region : Option (Location × Distance) := none
  fraction : Float := 1.0
  generator : Random.Generator
  /-- The start segments, once they are drawn. -/
  starts : Option (List Segment) := none

structure Report where
  summary : Summary
  events : List Log.Event
  recorder : Recorder

namespace Report

def history (r : Report) (elapsed : Json) : List Log.Event :=
  r.events ++ [.runEnd r.summary.checked r.summary.flagged r.summary.errors elapsed]

end Report

namespace Runner

def candidates (r : Runner) : List Segment × Network :=
  match r.region with
  | some (center, radius) => r.network.near center radius
  | none => (r.network.segments, r.network)

def startIds (segments : List Segment) : List Int :=
  ((segments.filter Check.validStart).map (·.id)).mergeSort (· ≤ ·)

/-- The start segments, in order of their numbers. They are drawn once and stay the same. -/
def startSegments (r : Runner) : Except Random.SampleError (List Segment × Runner) :=
  match r.starts with
  | some starts => .ok (starts, r)
  | none =>
    let (pool, network) := r.candidates
    match Random.sample (startIds pool) r.fraction r.generator with
    | .error e => .error e
    | .ok (ids, generator) =>
      let starts := ids.filterMap network.segment?
      .ok (starts, { r with network := network, generator := generator, starts := some starts })

def failureEvent (s : Segment) (fault : DataFault) (position : Nat) : Log.Event :=
  .failure (.int s.id) fault.message "GraphDataError" [("seq", .int position)]

def flagEvent (f : Flag) (position : Nat) : Log.Event :=
  .flag (.int f.start.id) (Json.ofText? f.start.name)
    (f.pairs.map fun p => (.int p.otherId, Json.ofText? p.otherName)) position

def payloadOf (r : Runner) (f : Flag) : Except PayloadError Json :=
  match Task.ofFlag f r.project with
  | .error e => .error (.task e)
  | .ok task => task.payload r.parent

/-- Checks one start by a search, after what the starts before it have led to. -/
def step (r : Runner) (search : Search) (position : Nat) (s : Segment) (before : Report) :
    Except RunError Report :=
  let begun := before.events ++ [.segmentStart (.int s.id) position]
  let counted := { before.summary with checked := before.summary.checked + 1 }
  match r.check.flagBy search s with
  | .error fault =>
    .ok {
      summary := { counted with
        errors := counted.errors + 1, failedIds := counted.failedIds ++ [s.id] }
      events := begun ++ [failureEvent s fault position]
      recorder := before.recorder }
  | .ok none => .ok { summary := counted, events := begun, recorder := before.recorder }
  | .ok (some f) =>
    match r.payloadOf f with
    | .error e => .error (.payload e)
    | .ok payload =>
      match before.recorder.emit payload with
      | (some fault, _) => .error (.write fault)
      | (none, recorder) =>
        .ok {
          summary := { counted with flagged := counted.flagged + 1 }
          events := begun ++ [flagEvent f position]
          recorder := recorder }

def steps (r : Runner) (search : Search) : Nat → List Segment → Report → Except RunError Report
  | _, [], report => .ok report
  | position, s :: rest, report =>
    match r.step search position s report with
    | .error e => .error e
    | .ok report => r.steps search (position + 1) rest report

def runBy (r : Runner) (search : Search) (recorder : Recorder) : Except RunError (Report × Runner) :=
  match r.startSegments with
  | .error e => .error (.sample e)
  | .ok (starts, r) =>
    match r.steps search 0 starts ⟨{}, [.runStart starts.length (max 1 r.workers)], recorder⟩ with
    | .error e => .error e
    | .ok report => .ok (report, r)

def run (r : Runner) (recorder : Recorder) : Except RunError (Report × Runner) :=
  r.runBy r.network.collect recorder

end Runner

end RoadNames
