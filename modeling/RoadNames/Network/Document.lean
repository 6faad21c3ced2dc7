import RoadNames.Network.Basic
set_option autoImplicit false

namespace RoadNames

inductive CoordinateFault where
  | noParts
  /-- An object, whose parts have names and no places. -/
  | noOrder
  | tooShort
  | badNumber (error : Json.CoercionError)
  | badPlace (error : LocationError)

def CoordinateFault.message : CoordinateFault → String
  | .noParts => "not a pair"
  | .noOrder => "no first value"
  | .tooShort => "need at least two values"
  | .badNumber error => error.message
  | .badPlace error => error.message

inductive Warning where
  | noLine (id : Int)
  | badCoordinate (id : Int) (value : Json) (fault : CoordinateFault)

def Warning.messageBy (explain : CoordinateFault → String) : Warning → String
  | .noLine id => "segment " ++ toString id ++ ": missing or malformed LineString geometry"
  | .badCoordinate id value fault =>
    "segment " ++ toString id ++ ": unusable coordinate " ++ value.shown ++ " (" ++ explain fault ++ ")"

def Warning.message : Warning → String := Warning.messageBy CoordinateFault.message

def Warning.segmentId : Warning → Int
  | .noLine id => id
  | .badCoordinate id _ _ => id

inductive LoadError where
  | data (fault : DataFault)
  | badFormat (error : LookupError)
  /-- A number beyond what can be held, where an integer or a coordinate is read. -/
  | overflow
  /-- A list of features that is a number or a truth value. -/
  | noSequence
  | longInteger (digits : Nat)

def LoadError.message : LoadError → String
  | .data fault => fault.message
  | .badFormat error => error.message "Unsupported graph fmt"
  | .overflow => "number too large"
  | .noSequence => "features is not a sequence"
  | .longInteger digits => "Exceeds the limit (" ++ toString Decimal.digitLimit ++
      " digits) for integer string conversion: value has " ++ toString digits ++
      " digits; use sys.set_int_max_str_digits() to increase the limit"

structure Reading (α : Type) where
  warnings : List Warning
  outcome : Except LoadError α

namespace Reading

variable {α β : Type}

def fail (error : LoadError) : Reading α := ⟨[], .error error⟩

def warn (warning : Warning) : Reading Unit := ⟨[warning], .ok ()⟩

def andThen (r : Reading α) (next : α → Reading β) : Reading β :=
  match r.outcome with
  | .error e => ⟨r.warnings, .error e⟩
  | .ok a => ⟨r.warnings ++ (next a).warnings, (next a).outcome⟩

instance : Monad Reading where
  pure a := ⟨[], .ok a⟩
  bind := andThen

def foldItems (read : Nat → β → α → Reading α) : Nat → List β → α → Reading α
  | _, [], a => pure a
  | k, item :: rest, a => do foldItems read (k + 1) rest (← read k item a)

end Reading

open Json

inductive Format where
  | geojson
  | json
  deriving DecidableEq, Repr

namespace Format

def all : List Format := [geojson, json]

def name : Format → String
  | geojson => "geojson"
  | json => "json"

def ofName? (name : String) : Option Format := all.find? fun f => f.name = name

theorem eq_name_of_lookUp {key : Json} {f : Format} (h : key.lookUp ofName? = .ok f) : key = .str f.name := by
  obtain ⟨name, rfl, hfind⟩ := exists_of_lookUp h
  have hname := List.find?_some hfind
  exact congrArg str (of_decide_eq_true hname).symm

end Format

inductive AxisOrder where
  | latFirst
  | lonFirst
  deriving DecidableEq, Repr

namespace Document

/-- The first two values of a coordinate. The characters of a text count as its values. -/
def pairOf (coordinate : Json) : Except CoordinateFault (Json × Json) :=
  match coordinate with
  | arr (a :: b :: _) => .ok (a, b)
  | arr _ => .error .tooShort
  | str s =>
    match s.toList with
    | a :: b :: _ => .ok (str (String.singleton a), str (String.singleton b))
    | _ => .error .tooShort
  | obj (_ :: _ :: _) => .error .noOrder
  | obj _ => .error .tooShort
  | _ => .error .noParts

def placeOf (order : AxisOrder) (coordinate : Json) : Except CoordinateFault Location :=
  match pairOf coordinate with
  | .error fault => .error fault
  | .ok (a, b) =>
    match a.toFloat with
    | .error e => .error (.badNumber e)
    | .ok x =>
      match b.toFloat with
      | .error e => .error (.badNumber e)
      | .ok y =>
        let place := match order with
          | .latFirst => Location.ofDegrees x y
          | .lonFirst => Location.ofDegrees y x
        match place with
        | .error e => .error (.badPlace e)
        | .ok p => .ok p

/-- A coordinate that cannot be used leaves the place unknown; only a number that no double reaches
ends the reading. -/
def readPlace (order : AxisOrder) (id : Int) (coordinate : Json) : Reading (Option Location) :=
  match placeOf order coordinate with
  | .ok p => pure (some p)
  | .error (.badNumber .overflow) => .fail .overflow
  | .error fault => do
    Reading.warn (.badCoordinate id coordinate fault)
    pure none

def readId (item : Item) (value : Json) : Reading Int :=
  match value.toInt with
  | .ok id => pure id
  | .error .overflow => .fail .overflow
  | .error _ => .fail (.data (.badId item value))

/-- Values that are missing, null or empty hold no fields; others have to be objects. -/
def fieldsOr (fault : DataFault) (value : Option Json) : Reading Fields :=
  match value with
  | none => pure []
  | some v =>
    if v.isTrue then
      match v with
      | obj fields => pure fields
      | _ => .fail (.data fault)
    else pure []

def tagsOf (fields : Fields) : Fields :=
  (fields.filter fun f => !f.2.isNull).map fun f => (f.1, str f.2.plainText)

def addSegment (g : Network) (s : Segment) : Reading Network :=
  match g.add s with
  | .ok g => pure g
  | .error (.duplicateId id) => .fail (.data (.duplicateId id))

def lineEnds? (geometry : Option Json) : Option (Json × Json) :=
  match geometry with
  | some g =>
    match g.field? "type", g.field? "coordinates" with
    | some (str "LineString"), some (arr (first :: second :: rest)) =>
      some (first, (second :: rest).getLastD second)
    | _, _ => none
  | none => none

def readFeature (k : Nat) (feature : Json) (g : Network) : Reading Network :=
  match feature with
  | obj _ => do
    let properties ← fieldsOr (.badProperties (.feature k)) (feature.field? "properties")
    let given := (properties.get? "id").getD ((feature.field? "id").getD null)
    let id ← readId (.feature k) given
    let tags := tagsOf (properties.remove "id")
    match lineEnds? (feature.field? "geometry") with
    | none => do
      Reading.warn (.noLine id)
      addSegment g ⟨id, none, none, tags⟩
    | some (first, last) => do
      let start ← readPlace .lonFirst id first
      let finish ← readPlace .lonFirst id last
      addSegment g ⟨id, start, finish, tags⟩
  | _ => .fail (.data (.notObject (.feature k)))

def readSegment (k : Nat) (item : Json) (g : Network) : Reading Network :=
  match item with
  | obj _ => do
    let id ← readId (.segment k) ((item.field? "id").getD null)
    let tags ← fieldsOr (.badTags (.segment k)) (item.field? "tags")
    let start ← readPlace .latFirst id ((item.field? "start").getD null)
    let finish ← readPlace .latFirst id ((item.field? "end").getD null)
    addSegment g ⟨id, start, finish, tagsOf tags⟩
  | _ => .fail (.data (.notObject (.segment k)))

/-- What counts as the list of features. Texts and objects are gone through as their characters and
keys, none of which is a feature. -/
def featuresOf (value : Option Json) : Reading (List Json) :=
  match value with
  | none => pure []
  | some v =>
    if v.isTrue then
      match v with
      | arr items => pure items
      | str s => pure (s.toList.map fun c => str (String.singleton c))
      | obj fields => pure (fields.map fun f => str f.1)
      | _ => .fail .noSequence
    else pure []

def readFeatures (document : Json) : Reading Network :=
  match document.field? "type" with
  | some (str "FeatureCollection") => do
    let features ← featuresOf (document.field? "features")
    Reading.foldItems readFeature 0 features (Network.empty Network.defaultDigits)
  | _ => .fail (.data .notFeatureCollection)

def readSegments (document : Json) : Reading Network :=
  match document.field? "segments" with
  | some (arr items) =>
    Reading.foldItems readSegment 0 items (Network.empty Network.defaultDigits)
  | _ => .fail (.data .noSegmentList)

end Document

def Network.read (format : Format) (document : Json) : Reading Network :=
  match format with
  | .geojson => Document.readFeatures document
  | .json => Document.readSegments document

def Network.readNamed (format : Json) (document : Json) : Reading Network :=
  match format.lookUp Format.ofName? with
  | .error error => .fail (.badFormat error)
  | .ok f => Network.read f document

end RoadNames
