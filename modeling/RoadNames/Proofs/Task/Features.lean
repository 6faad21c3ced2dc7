import RoadNames.Proofs.Task.History
set_option autoImplicit false

namespace RoadNames.Task

/-- A feature that shows a point: the place, its longitude first, and the description if there is one. -/
def Shows (p : TaskPoint) (feature : Json) : Prop :=
  feature = .obj [
    ("type", .str "Feature"),
    ("geometry", .obj [
      ("type", .str "Point"),
      ("coordinates", .arr [.float p.place.lon, .float p.place.lat])]),
    ("properties", .obj (p.description.toList.map fun text => ("description", .str text)))]

/-- Properties that say what found the feature. The two that say so come last unless they were there before, and all
others are as they were. -/
structure MarkedProperties (challenge : String) (before after : Json.Fields) : Prop where
  check : Table.get? after "flag:check" = some (.str challenge)
  generator : Table.get? after "flag:generator" = some (.str "road-spelling")
  others : ∀ key, key ≠ "flag:check" → key ≠ "flag:generator" → Table.get? after key = Table.get? before key
  keys : Table.keys after =
    Table.keys before ++ ["flag:check", "flag:generator"].filter fun key => key ∉ Table.keys before

/-- A feature whose properties are marked, those that it has or none. They come last unless it has some, and all else
is as it was. -/
structure MarkedFeature (challenge : String) (before after : Json.Fields) : Prop where
  properties : ∃ given marked, (Table.get? before "properties").getD (.obj []) = .obj given ∧
    Table.get? after "properties" = some (.obj marked) ∧ MarkedProperties challenge given marked
  others : ∀ key, key ≠ "properties" → Table.get? after key = Table.get? before key
  keys : Table.keys after = Table.keys before ++ ["properties"].filter fun key => key ∉ Table.keys before

def HandedOut (challenge : String) : List Json → List Json → Prop
  | [], after => after = []
  | first :: rest, after =>
    ∃ fields marked, first = .obj fields ∧ after = .obj marked :: rest ∧ MarkedFeature challenge fields marked

/-- All features are objects, and the properties of the first one, if it has any, are an object too. -/
structure Proper (features : List Json) : Prop where
  objects : ∀ feature ∈ features, ∃ fields, feature = .obj fields
  properties : ∀ feature ∈ features.head?, ∀ value, feature.field? "properties" = some value →
    ∃ fields, value = .obj fields

def given (t : Task) : List Json := t.geojson.getD []

variable {t : Task} {challenge : String} {first : Json} {rest : List Json}

theorem shows_pointFeature (p : TaskPoint) : Shows p (pointFeature p) := by
  obtain ⟨place, description⟩ := p
  cases description <;> rfl

theorem forall₂_shows (ps : List TaskPoint) : List.Forall₂ Shows ps (ps.map pointFeature) := by
  induction ps with
  | nil => exact .nil
  | cons p ps ih => exact .cons (shows_pointFeature p) ih

def mark (challenge : String) (properties : Json.Fields) : Json.Fields :=
  Table.setAll properties [(checkKey, .str challenge), (generatorKey, .str generatorName)]

theorem markedProperties_mark (challenge : String) (properties : Json.Fields) :
    MarkedProperties challenge properties (mark challenge properties) where
  check := by simp [mark, Table.setAll, Table.get?_set, checkKey, generatorKey]
  generator := by simp [mark, Table.setAll, Table.get?_set, generatorKey, generatorName]
  others := fun key hcheck hgenerator => by
    simp [mark, Table.setAll, Table.get?_set, checkKey, generatorKey, hcheck.symm, hgenerator.symm]
  keys := Table.keys_setAll properties _ (show [checkKey, generatorKey].Nodup by decide)

theorem markFeature_of_proper (h : Proper (first :: rest)) (challenge : String) :
    ∃ fields marked, first = .obj fields ∧ markFeature challenge first = .ok (.obj marked) ∧
      MarkedFeature challenge fields marked := by
  obtain ⟨fields, rfl⟩ := h.objects first List.mem_cons_self
  obtain ⟨properties, hproperties⟩ :
      ∃ properties, (Table.get? fields "properties").getD (.obj []) = .obj properties := by
    cases hvalue : Table.get? fields "properties" with
    | none => exact ⟨[], rfl⟩
    | some value => exact h.properties _ rfl value hvalue
  refine ⟨fields, Table.set fields "properties" (.obj (mark challenge properties)), rfl, ?_, ?_⟩
  · simp only [markFeature, hproperties]
    rfl
  · refine ⟨⟨properties, _, hproperties, ?_, markedProperties_mark challenge properties⟩, fun key hkey => ?_,
      Table.keys_setAll fields [("properties", _)] (List.pairwise_singleton _ _)⟩
    · rw [Table.get?_set, if_pos rfl]
    · rw [Table.get?_set, if_neg hkey.symm]

theorem extraFeatures_of_proper (h : Proper t.given) :
    ∃ extra, t.extraFeatures = .ok extra ∧ HandedOut t.challenge t.given extra := by
  unfold given extraFeatures at *
  cases hgeojson : t.geojson with
  | none => exact ⟨[], rfl, rfl⟩
  | some features =>
    rw [hgeojson, Option.getD_some] at h
    cases features with
    | nil => exact ⟨[], rfl, rfl⟩
    | cons first rest =>
      obtain ⟨fields, marked, hfirst, hmark, hmarked⟩ := markFeature_of_proper h t.challenge
      exact ⟨.obj marked :: rest, by simp only [hmark], fields, marked, hfirst, rfl, hmarked⟩

def markedBefore : Task where
  challenge := "Spelling"
  identifier := "2"
  points := [⟨⟨1, 2, by decide +kernel, by decide +kernel⟩, none⟩]
  geojson := some [
    .obj [("properties", .obj [("flag:check", .str "Older"), ("lanes", .int 2)]), ("type", .str "Feature")],
    .obj [("type", .str "Feature"), ("properties", .null)]]

def Response.features? : Response → Option (List Json)
  | .generated (.ok (.obj fields)) =>
    match (Table.get? fields "geometries").bind (·.field? "features") with
    | some (.arr features) => some features
    | _ => none
  | _ => none

end RoadNames.Task
