import RoadNames.Names
import RoadNames.Network.Basic
set_option autoImplicit false

namespace RoadNames

inductive ChangeKind where
  | add
  | update
  | remove
  deriving DecidableEq, Repr

namespace ChangeKind

def all : List ChangeKind := [add, update, remove]

def name : ChangeKind → String
  | add => "ADD"
  | update => "UPDATE"
  | remove => "REMOVE"

def ofName? (name : String) : Option ChangeKind := all.find? fun k => k.name = name

end ChangeKind

structure TagChange where
  kind : ChangeKind
  key : String
  /-- Null where a tag is removed. -/
  value : Json := .null

structure Change where
  id : Int
  kind : ChangeKind
  tags : List TagChange

namespace Change

def setTag (id : Int) (key : String) (value : Json) : Change := ⟨id, .update, [⟨.update, key, value⟩]⟩

def unsetTag (id : Int) (key : String) : Change := ⟨id, .update, [⟨.remove, key, .null⟩]⟩

end Change

structure UnknownKind where
  text : Json

def UnknownKind.message (e : UnknownKind) : String := e.text.shown ++ " is not a valid ChangeType"

def ChangeKind.read (text : Json) : Except UnknownKind ChangeKind :=
  match text with
  | .str name =>
    match ofName? name with
    | some kind => .ok kind
    | none => .error ⟨text⟩
  | _ => .error ⟨text⟩

structure NamePair where
  startId : Int
  otherId : Int
  startName : Option String
  otherName : Option String
  deriving DecidableEq, Repr

structure PointOfInterest where
  place : Location
  description : Option String

structure Flag where
  checkName : String
  identifier : String
  instruction : String
  start : Segment
  flagged : List Segment
  pairs : List NamePair
  points : List PointOfInterest

structure Check where
  limit : Distance
  challenge : String

namespace Check

def defaultChallenge : String := "RoadNameSpellingConsistencyCheck"

def validStart (s : Segment) : Bool := s.isPrimary && s.name.isSome

def sortById (segments : List Segment) : List Segment := segments.mergeSort fun s t => s.id ≤ t.id

/-- The segments found from `start` whose names and that of `start` are one name spelt in two ways. -/
def inconsistentBy (c : Check) (search : Search) (start : Segment) :
    Except DataFault (List Segment) :=
  match start.name with
  | none => .ok []
  | some name =>
    match search start c.limit with
    | .error e => .error e
    | .ok nearby =>
      .ok (sortById (nearby.filter fun s => Names.inconsistentNames s.name (some name)))

def inconsistent (c : Check) (g : Network) (start : Segment) : Except DataFault (List Segment) :=
  c.inconsistentBy g.collect start

def instruction (start : Segment) (flagged : List Segment) : String :=
  let others := flagged.map fun s => toString s.id ++ " (" ++ shownText? s.name ++ ")"
  "Segment " ++ toString start.id ++ " is named " ++ shownText? start.name ++ ". Nearby segment(s) "
    ++ ", ".intercalate others ++ " have a name one character different. Check the spelling and make "
    ++ "the names consistent if they refer to the same road."

def pointOf (s : Segment) : Option PointOfInterest :=
  s.start.map fun p => ⟨p, some ("segment " ++ toString s.id ++ ": " ++ shownText? s.name)⟩

def flagOf (c : Check) (start : Segment) (flagged : List Segment) : Flag where
  checkName := c.challenge
  identifier := toString start.id
  instruction := instruction start flagged
  start := start
  flagged := flagged
  pairs := flagged.map fun s => ⟨start.id, s.id, start.name, s.name⟩
  points := (start :: flagged).filterMap pointOf

def flagBy (c : Check) (search : Search) (start : Segment) : Except DataFault (Option Flag) :=
  if validStart start then
    match c.inconsistentBy search start with
    | .error e => .error e
    | .ok [] => .ok none
    | .ok (s :: rest) => .ok (some (c.flagOf start (s :: rest)))
  else .ok none

@[simp] theorem flagBy_of_not_validStart {c : Check} {search : Search} {s : Segment}
    (h : validStart s = false) : c.flagBy search s = .ok none := by
  simp [flagBy, h]

def flag (c : Check) (g : Network) (start : Segment) : Except DataFault (Option Flag) :=
  c.flagBy g.collect start

end Check

namespace Flag

def fixes (f : Flag) : List Change :=
  f.flagged.map fun s => .setTag s.id Segment.nameKey (Json.ofText? f.start.name)

end Flag

end RoadNames
