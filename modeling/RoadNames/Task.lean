import RoadNames.Check
set_option autoImplicit false

/-!
Tasks of a mapping challenge: points to look at and further features, with operations that mend what
is found there. A task is known by its identifier and its challenge.
-/

namespace RoadNames

inductive TagOperation where
  | set (key : String) (value : Json)
  | unset (key : String)

inductive ElementAction where
  | modify
  | remove
  deriving DecidableEq, Repr

structure Operation where
  action : ElementAction
  id : Int
  tags : List TagOperation

inductive TaskError where
  | unsupportedChange (kind : ChangeKind)
  | noFeatures (identifier : String)
  deriving DecidableEq, Repr

def TaskError.message : TaskError → String
  | .unsupportedChange kind => "Unsupported feature change " ++ kind.name
  | .noFeatures identifier =>
    "Could not find any features for the task [" ++ identifier ++ "]."

namespace Operation

def ofTagChange (c : TagChange) : TagOperation :=
  match c.kind with
  | .add | .update => .set c.key c.value
  | .remove => .unset c.key

def ofChange (c : Change) : Except TaskError Operation :=
  match c.kind with
  | .add => .error (.unsupportedChange .add)
  | .update => .ok ⟨.modify, c.id, c.tags.map ofTagChange⟩
  | .remove => .ok ⟨.remove, c.id, c.tags.map ofTagChange⟩

def cooperativeWork : List Change → Except TaskError (List Operation)
  | [] => .ok []
  | c :: rest =>
    match ofChange c with
    | .error e => .error e
    | .ok op =>
      match cooperativeWork rest with
      | .error e => .error e
      | .ok ops => .ok (op :: ops)

def tagJson : TagOperation → Json
  | .set key value => .obj [("operation", .str "setTags"), ("data", .obj [(key, value)])]
  | .unset key => .obj [("operation", .str "unsetTags"), ("data", .arr [.str key])]

def actionName : ElementAction → String
  | .modify => "modifyElement"
  | .remove => "removeElement"

def toJson (op : Operation) : Json :=
  .obj [
    ("operationType", .str (actionName op.action)),
    ("data", .obj [("id", .int op.id), ("operations", .arr (op.tags.map tagJson))])]

end Operation

structure TaskPoint where
  place : Location
  description : Option String

def TaskPoint.same (p q : TaskPoint) : Bool :=
  p.place.same q.place && p.description = q.description

structure Task where
  challenge : String := ""
  identifier : String := ""
  instruction : String := ""
  project : String := ""
  points : List TaskPoint := []
  geojson : Option (List Json) := none
  operations : List Operation := []

inductive PayloadError where
  | task (error : TaskError)
  | featureNotObject
  | propertiesNotObject

def PayloadError.message : PayloadError → String
  | .task error => error.message
  | .featureNotObject => "feature is not an object"
  | .propertiesNotObject => "feature properties must be an object"

namespace Task

def generatorName : String := "road-spelling"

def checkKey : String := "flag:check"

def generatorKey : String := "flag:generator"

def identity (t : Task) : String × String := (t.identifier, t.challenge)

def same (t u : Task) : Bool := t.identity = u.identity

def addPoint (t : Task) (p : TaskPoint) : Task :=
  if t.points.any p.same then t else { t with points := t.points ++ [p] }

def addPoints (t : Task) (ps : List TaskPoint) : Task := ps.foldl addPoint t

def addPlaces (t : Task) (places : List Location) : Task :=
  t.addPoints (places.map fun p => ⟨p, none⟩)

/-- The operations that were there before stay if the changes cannot be made into operations. -/
def setCooperativeWork (t : Task) (changes : List Change) : Except TaskError Task :=
  match Operation.cooperativeWork changes with
  | .error e => .error e
  | .ok ops => .ok { t with operations := ops }

def pointFeature (p : TaskPoint) : Json :=
  .obj [
    ("type", .str "Feature"),
    ("geometry", .obj [
      ("type", .str "Point"),
      ("coordinates", .arr [.float p.place.lon, .float p.place.lat])]),
    ("properties", .obj (match p.description with
      | none => []
      | some text => [("description", .str text)]))]

def markFeature (challenge : String) (feature : Json) : Except PayloadError Json :=
  match feature with
  | .obj fields =>
    match (Table.get? fields "properties").getD (.obj []) with
    | .obj properties =>
      let marked := Table.set (Table.set properties checkKey (.str challenge)) generatorKey
        (.str generatorName)
      .ok (.obj (Table.set fields "properties" (.obj marked)))
    | _ => .error .propertiesNotObject
  | _ => .error .featureNotObject

def extraFeatures (t : Task) : Except PayloadError (List Json) :=
  match t.geojson with
  | none | some [] => .ok []
  | some (first :: rest) =>
    match markFeature t.challenge first with
    | .error e => .error e
    | .ok marked => .ok (marked :: rest)

def features (t : Task) : Except PayloadError (List Json) :=
  if t.points.isEmpty && (t.geojson.getD []).isEmpty then
    .error (.task (.noFeatures t.identifier))
  else
    match t.extraFeatures with
    | .error e => .error e
    | .ok extra => .ok (t.points.map pointFeature ++ extra)

def cooperativeFields (ops : List Operation) : Json.Fields :=
  if ops.isEmpty then []
  else [("cooperativeWork", .obj [
    ("meta", .obj [("version", .int 2), ("type", .int 1)]),
    ("operations", .arr (ops.map Operation.toJson))])]

def payload (t : Task) (parent : Int) : Except PayloadError Json :=
  match t.features with
  | .error e => .error e
  | .ok features =>
    .ok (.obj ([
      ("instruction", .str t.instruction),
      ("name", .str t.identifier),
      ("parent", .int parent),
      ("geometries", .obj [("type", .str "FeatureCollection"), ("features", .arr features)])]
      ++ cooperativeFields t.operations))

def ofFlag (f : Flag) (project : String) : Except TaskError Task :=
  let base : Task :=
    { challenge := f.checkName, identifier := f.identifier, instruction := f.instruction,
      project := project }
  (base.addPoints (f.points.map fun p => ⟨p.place, p.description⟩)).setCooperativeWork f.fixes

end Task

end RoadNames
