import RoadNames.Geography
set_option autoImplicit false

/-!
Road networks: segments in the order of their arrival, an index of the segments at each node, and an index of where
segments start, which is built when it is first asked for and dropped when a segment is added. A walk goes out from a
segment to the neighbours of every segment that ends near where the first one starts, and in turn to their neighbours.
-/

namespace RoadNames

structure Segment where
  id : Int
  start : Option Location
  finish : Option Location
  tags : Json.Fields := []

namespace Segment

def nameKey : String := "name"

/-- The text of the name tag, unless it is missing or blank. -/
def name (s : Segment) : Option String :=
  match s.tags.get? nameKey with
  | none => none
  | some .null => none
  | some v => if v.plainText.toList.all Text.isBlank then none else some v.plainText

/-- Segments for the reverse direction and other duplicates have numbers below one. -/
def isPrimary (s : Segment) : Bool := 0 < s.id

def ends (s : Segment) : List Location :=
  match s.start, s.finish with
  | some p, some q => if p.same q then [p] else [p, q]
  | some p, none => [p]
  | none, some q => [q]
  | none, none => []

def samePlace : Option Location → Option Location → Bool
  | some p, some q => p.same q
  | none, none => true
  | _, _ => false

/-- Segments are the same if their numbers and places are; the tags only ride along. -/
def same (s t : Segment) : Bool :=
  s.id = t.id && samePlace s.start t.start && samePlace s.finish t.finish

end Segment

/-- The places where segments start, with the numbers of these segments. -/
abbrev StartIndex := List (Location × Int)

structure Network where
  /-- Ends are at one node if they are equal when rounded to this number of places. -/
  digits : Int
  segments : List Segment
  nodes : Table Node (List Int)
  starts : Option StartIndex

inductive AddError where
  | duplicateId (id : Int)
  deriving DecidableEq, Repr

def AddError.message : AddError → String
  | .duplicateId id => "duplicate segment id " ++ toString id

namespace Network

def defaultDigits : Int := 7

def empty (digits : Int) : Network := ⟨digits, [], [], none⟩

def ids (g : Network) : List Int := g.segments.map (·.id)

def segment? (g : Network) (id : Int) : Option Segment := g.segments.find? fun s => s.id = id

def contains (g : Network) (id : Int) : Bool := g.ids.contains id

def primaryIds (g : Network) : List Int := (g.segments.filter Segment.isPrimary).map (·.id)

def atNode (nodes : Table Node (List Int)) (node : Node) : List Int := (nodes.get? node).getD []

def indexEnds (digits : Int) (nodes : Table Node (List Int)) (s : Segment) : Table Node (List Int) :=
  s.ends.foldl (fun nodes p => nodes.set (p.node digits) (atNode nodes (p.node digits) ++ [s.id]))
    nodes

def add (g : Network) (s : Segment) : Except AddError Network :=
  if g.contains s.id then .error (.duplicateId s.id)
  else .ok ⟨g.digits, g.segments ++ [s], indexEnds g.digits g.nodes s, none⟩

/-- The other segments that share a node with one of the ends of `s`, each once. -/
def connected (g : Network) (s : Segment) : List Segment :=
  let places := s.start.toList ++ s.finish.toList
  let touching := places.flatMap fun p => atNode g.nodes (p.node g.digits)
  (touching.filter (· ≠ s.id)).eraseDups.filterMap g.segment?

def startIndex (g : Network) : StartIndex :=
  g.segments.filterMap fun s => s.start.map fun p => (p, s.id)

/-- The segments that start within `radius` of `center`, and the network with its index built. -/
def near (g : Network) (center : Location) (radius : Distance) : List Segment × Network :=
  let index := g.starts.getD g.startIndex
  ((index.filter fun e => center.distanceTo e.1 ≤ radius).filterMap fun e => g.segment? e.2,
    { g with starts := some index })

theorem segment?_mem {g : Network} {id : Int} {s : Segment} (h : g.segment? id = some s) :
    s ∈ g.segments := List.mem_of_find?_eq_some h

theorem segment?_id {g : Network} {id : Int} {s : Segment} (h : g.segment? id = some s) :
    s.id = id := by simpa using List.find?_some h

theorem connected_mem {g : Network} {s t : Segment} (h : t ∈ g.connected s) : t ∈ g.segments := by
  obtain ⟨id, _, hid⟩ := List.mem_filterMap.mp h
  exact segment?_mem hid

end Network

inductive Item where
  | feature (index : Nat)
  | segment (index : Nat)
  deriving DecidableEq, Repr

def Item.label : Item → String
  | .feature k => "feature[" ++ toString k ++ "]"
  | .segment k => "segments[" ++ toString k ++ "]"

inductive DataFault where
  | place (error : LocationError)
  | noStart (id : Int)
  | noEnd (id : Int)
  | notFeatureCollection
  | noSegmentList
  | notObject (item : Item)
  | badProperties (item : Item)
  | badTags (item : Item)
  | badId (item : Item) (value : Json)
  | duplicateId (id : Int)
  | notText (file : String)
  | notDocument (file : String)

def DataFault.message : DataFault → String
  | .place error => error.message
  | .noStart id => "segment " ++ toString id ++ " has no start location"
  | .noEnd id => "segment " ++ toString id ++ " has no end location"
  | .notFeatureCollection => "geojson graph must be a FeatureCollection"
  | .noSegmentList => "json graph must be an object with a 'segments' list"
  | .notObject item => item.label ++ " is not an object"
  | .badProperties item => item.label ++ ": properties must be an object"
  | .badTags item => item.label ++ ": tags must be an object"
  | .badId item value => item.label ++ ": segment id " ++ value.shown ++ " is not an integer"
  | .duplicateId id => "duplicate segment id " ++ toString id
  | .notText file => file ++ ": not valid UTF-8"
  | .notDocument file => file ++ ": not valid JSON"

def DataFault.segmentId : DataFault → Option Int
  | .noStart id | .noEnd id | .duplicateId id => some id
  | _ => none

namespace Walk

variable {α ε : Type} [DecidableEq α]

/-- Which of some candidates are still to be found, each once, and what then is left to be found. -/
def discover : List α → List α → List α × List α
  | [], hidden => ([], hidden)
  | x :: xs, hidden =>
    if x ∈ hidden then
      let (found, left) := discover xs (hidden.filter (· ≠ x))
      (x :: found, left)
    else discover xs hidden

theorem length_filter_ne_lt {x : α} {hidden : List α} (h : x ∈ hidden) :
    (hidden.filter (· ≠ x)).length < hidden.length := by
  apply Nat.lt_of_le_of_ne (List.length_filter_le ..)
  intro he
  have := (List.length_filter_eq_length_iff.mp he) x h
  simp at this

theorem discover_shrinks (xs hidden : List α) :
    (discover xs hidden).2.length ≤ hidden.length ∧
      ((discover xs hidden).1 = [] ∨ (discover xs hidden).2.length < hidden.length) := by
  induction xs generalizing hidden with
  | nil => simp [discover]
  | cons x xs ih =>
    by_cases h : x ∈ hidden
    · have hlt := length_filter_ne_lt h
      have hle := (ih (hidden.filter (· ≠ x))).1
      simp only [discover, h, ↓reduceIte]
      exact ⟨by omega, Or.inr (by omega)⟩
    · simpa only [discover, h, ↓reduceIte] using ih hidden

/-- What is found from a queue of what is reached already, while `hidden` is still to be found. -/
def walkFrom (expand : α → Except ε (List α)) (hidden queue : List α) : Except ε (List α) :=
  match queue with
  | [] => .ok []
  | x :: rest =>
    match expand x with
    | .error e => .error e
    | .ok candidates =>
      match walkFrom expand (discover candidates hidden).2 (rest ++ (discover candidates hidden).1) with
      | .error e => .error e
      | .ok later => .ok ((discover candidates hidden).1 ++ later)
termination_by (hidden.length, queue.length)
decreasing_by
  obtain ⟨hle, hcase⟩ := discover_shrinks candidates hidden
  rcases hcase with h | h
  · rcases Nat.lt_or_eq_of_le hle with hlt | heq
    · exact Prod.Lex.left _ _ hlt
    · rw [heq, h]
      exact Prod.Lex.right _ (by simp)
  · exact Prod.Lex.left _ _ h

/-- What is reached from `start` within `domain`, without `start` itself. -/
def walk (expand : α → Except ε (List α)) (domain : List α) (start : α) : Except ε (List α) :=
  walkFrom expand (domain.filter (· ≠ start)) [start]

end Walk

abbrev Adjacency := Table Int (List Int)

namespace Adjacency

/-- A number without an entry cannot be expanded. -/
def neighbours (t : Adjacency) (id : Int) : Except Int (List Int) :=
  match Table.get? t id with
  | some ids => .ok ids
  | none => .error id

def domain (t : Adjacency) : List Int := t.flatMap fun entry => entry.1 :: entry.2

def walk (t : Adjacency) (start : Int) : Except Int (List Int) :=
  Walk.walk t.neighbours t.domain start

end Adjacency

abbrev Search := Segment → Distance → Except DataFault (List Segment)

namespace Network

/-- The neighbours to go on to from `incoming`, on a walk from `start`: none if `incoming` ends farther
than `limit` from the place where `start` starts. -/
def expandThrough (neighbours : Segment → List Segment) (start : Segment) (limit : Distance)
    (incoming : Segment) : Except DataFault (List Segment) :=
  match start.start with
  | none => .error (.noStart start.id)
  | some origin =>
    match incoming.finish with
    | none => .error (.noEnd incoming.id)
    | some place =>
      if place.distanceTo origin ≤ limit then .ok ((neighbours incoming).filter Segment.isPrimary)
      else .ok []

def expandWithin (g : Network) (start : Segment) (limit : Distance) (incoming : Segment) :
    Except DataFault (List Segment) :=
  expandThrough g.connected start limit incoming

def expandAll (g : Network) (incoming : Segment) : Except DataFault (List Segment) :=
  .ok (g.connected incoming)

def byId {ε : Type} (g : Network) (expand : Segment → Except ε (List Segment)) (id : Int) :
    Except ε (List Int) :=
  match g.segment? id with
  | none => .ok []
  | some s =>
    match expand s with
    | .error e => .error e
    | .ok neighbours => .ok (neighbours.map (·.id))

/-- The segments that a walk from `start` reaches, nearest first. -/
def collectBy {ε : Type} (g : Network) (expand : Segment → Except ε (List Segment))
    (start : Segment) : Except ε (List Segment) :=
  match Walk.walk (g.byId expand) g.ids start.id with
  | .error e => .error e
  | .ok ids => .ok (ids.filterMap g.segment?)

def collect (g : Network) (start : Segment) (limit : Distance) : Except DataFault (List Segment) :=
  g.collectBy (g.expandWithin start limit) start

end Network

end RoadNames
