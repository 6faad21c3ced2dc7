import Mathlib.Data.List.Forall2
import RoadNames.Proofs.Network.Document
set_option autoImplicit false

namespace RoadNames.Document

open Json

/-- Two values for a place, of any kind, but no integers that no double reaches. -/
structure Coordinates where
  lat : Json
  lon : Json
  lat_reached : ¬ lat.BeyondDoubles
  lon_reached : ¬ lon.BeyondDoubles

structure Record where
  id : Json
  start : Coordinates
  finish : Coordinates
  tags : Fields
  tags_nameless : "id" ∉ tags.keys

def Coordinates.pair (c : Coordinates) : Json := arr [c.lat, c.lon]

/-- The longitude comes first, and further values after the latitude have no meaning. -/
def Coordinates.position (c : Coordinates) (further : List Json) : Json := arr (c.lon :: c.lat :: further)

def Coordinates.place? (c : Coordinates) : Option Location := placeOf? .latFirst c.pair

variable {c : Coordinates} {further : List Json}

theorem not_outOfReach {v first second : Json} (hpair : pairOf v = .ok (first, second))
    (hfirst : ¬ first.BeyondDoubles) (hsecond : ¬ second.BeyondDoubles) : ¬ OutOfReach v := by
  rw [outOfReach_iff hpair]
  exact fun h => h.elim hfirst fun h => hsecond h.2

theorem placeOf?_position (c : Coordinates) (further : List Json) :
    placeOf? .lonFirst (c.position further) = c.place? := by
  have hposition : pairOf (c.position further) = .ok (c.lon, c.lat) := rfl
  have hpair : pairOf c.pair = .ok (c.lat, c.lon) := rfl
  unfold Coordinates.place? placeOf? placeOf
  rw [hposition, hpair]
  cases hlon : c.lon.toFloat <;> cases hlat : c.lat.toFloat <;> simp [hlon, hlat, Except.toOption]

structure Record.IsSegment (r : Record) (item : Json) : Prop where
  id : item.field? "id" = some r.id
  start : item.field? "start" = some r.start.pair
  finish : item.field? "end" = some r.finish.pair
  tags : item.field? "tags" = some (obj r.tags)

/-- The feature that a record is written down as, the number being among its properties. The line has a
position at either end and may have others between them. -/
structure Record.IsFeature (r : Record) (item : Json) : Prop where
  properties : ∃ before after, r.tags = before ++ after ∧
    item.field? "properties" = some (obj (before ++ ("id", r.id) :: after))
  geometry : ∃ line between more others, item.field? "geometry" = some line ∧
    line.field? "type" = some (str "LineString") ∧
    line.field? "coordinates" =
      some (arr (r.start.position more :: between ++ [r.finish.position others]))

def Record.IsItem (r : Record) : Format → Json → Prop
  | .json, item => r.IsSegment item
  | .geojson, item => r.IsFeature item

def Record.label? (r : Record) : Option (Int × Fields) :=
  r.id.toInt.toOption.map fun id => (id, tagsOf r.tags)

variable {r : Record} {format : Format} {item : Json}

theorem toOption_readId (item : Item) (value : Json) :
    (readId item value).outcome.toOption = value.toInt.toOption := by
  unfold readId
  cases value.toInt with
  | ok id => rfl
  | error e => cases e <;> rfl

theorem exists_fields {key : String} {value : Json} (h : item.field? key = some value) :
    ∃ fields, item = obj fields := by
  cases item with
  | obj fields => exact ⟨fields, rfl⟩
  | _ => cases h

theorem fieldsIn_obj (fault : DataFault) (fields : Fields) : fieldsIn fault (some (obj fields)) = .ok fields := by
  cases fields <;> simp [fieldsIn, Json.isTrue]

theorem get?_properties {before after : Fields} (value : Json) (h : "id" ∉ (before ++ after).keys) :
    Table.get? (before ++ ("id", value) :: after) "id" = some value ∧
      Table.remove (before ++ ("id", value) :: after) "id" = before ++ after := by
  induction before with
  | nil =>
    have hafter : ∀ f ∈ after, f.1 ≠ "id" := fun f hf hid => h (List.mem_map.mpr ⟨f, hf, hid⟩)
    exact ⟨by simp [Table.get?], by simpa [Table.remove] using hafter⟩
  | cons f before ih =>
    have hf : f.1 ≠ "id" := fun hid => h (List.mem_map.mpr ⟨f, by simp, hid⟩)
    obtain ⟨hget, hremove⟩ := ih fun hmem => h (List.mem_cons_of_mem f.1 hmem)
    exact ⟨by simpa [Table.get?, hf] using hget, by simpa [Table.remove, hf] using hremove⟩

theorem label_of_given {k : Nat} (hid : idGiven format k item = .ok r.id)
    (htags : tagsGiven format k item = .ok (tagsOf r.tags)) : (labelOf format k item).toOption = r.label? := by
  rw [labelOf, hid, htags, Record.label?, ← toOption_readId (itemOf format k)]
  simp only [ending_ok, Reading.ok_bind]
  cases (readId (itemOf format k) r.id).outcome <;> rfl

theorem label_of_isItem (h : r.IsItem format item) (k : Nat) :
    (labelOf format k item).toOption = r.label? := by
  cases format with
  | json =>
    obtain ⟨fields, rfl⟩ := exists_fields h.id
    apply label_of_given
    · show Except.ok (((obj fields).field? "id").getD null) = _
      rw [h.id, Option.getD_some]
    · rw [tagsGiven, h.tags, fieldsIn_obj]
      rfl
  | geojson =>
    obtain ⟨before, after, hparts, hproperties⟩ := h.properties
    obtain ⟨fields, rfl⟩ := exists_fields hproperties
    obtain ⟨hget, hremove⟩ := get?_properties r.id (hparts ▸ r.tags_nameless)
    apply label_of_given
    · show (fieldsIn _ ((obj fields).field? "properties")).map _ = _
      rw [hproperties, fieldsIn_obj, Except.map, hget]
      rfl
    · rw [tagsGiven, hproperties, fieldsIn_obj, Except.map, hremove, hparts]

theorem ends_of_isItem (h : r.IsItem format item) :
    ∃ first last, coordinatesOf format item = some (first, last) ∧
      ¬ OutOfReach first ∧ ¬ OutOfReach last ∧
      placeOf? (orderOf format) first = r.start.place? ∧
      placeOf? (orderOf format) last = r.finish.place? := by
  cases format with
  | json =>
    have hreach := fun c : Coordinates => not_outOfReach (v := c.pair) rfl c.lat_reached c.lon_reached
    refine ⟨r.start.pair, r.finish.pair, ?_, hreach _, hreach _, rfl, rfl⟩
    simp [coordinatesOf, h.start, h.finish]
  | geojson =>
    obtain ⟨line, between, more, others, hgeometry, htype, hcoordinates⟩ := h.geometry
    have hreach := fun (c : Coordinates) further =>
      not_outOfReach (v := c.position further) rfl c.lon_reached c.lat_reached
    refine ⟨r.start.position more, r.finish.position others, ?_, hreach _ _, hreach _ _,
      placeOf?_position _ _, placeOf?_position _ _⟩
    rw [coordinatesOf, hgeometry, lineEnds?, htype, hcoordinates]
    cases between with
    | nil => rfl
    | cons second between =>
      have hlast : (second :: between ++ [r.finish.position others]).getLastD second =
          r.finish.position others := List.getLastD_concat
      exact congrArg (fun last => some (r.start.position more, last)) hlast

def Record.addTo? (r : Record) (g : Network) : Option Network := do
  let (id, tags) ← r.label?
  (addSegment g ⟨id, r.start.place?, r.finish.place?, tags⟩).outcome.toOption

theorem readItem_of_isItem (h : r.IsItem format item) (k : Nat) (g : Network) :
    (readItem format k item g).outcome.toOption = r.addTo? g := by
  obtain ⟨first, last, hends, hfirst, hlast, hstart, hfinish⟩ := ends_of_isItem h
  rw [outcome_readItem, Record.addTo?, ← label_of_isItem h k]
  cases hlabel : labelOf format k item with
  | error e => rfl
  | ok label =>
    simp only [hends, Reading.ok_bind, outcome_readPlace _ _ hfirst, outcome_readPlace _ _ hlast, hstart,
      hfinish]
    rfl

theorem foldItems_of_isItem {records : List Record} {items : List Json}
    (h : List.Forall₂ (fun r item => r.IsItem format item) records items) (k : Nat) (g : Network) :
    (Reading.foldItems (readItem format) k items g).outcome.toOption =
      records.foldlM (fun g r => r.addTo? g) g := by
  induction h generalizing k g with
  | nil => rfl
  | cons hitem _ ih =>
    rw [Reading.foldItems, Reading.outcome_bind, List.foldlM_cons, ← readItem_of_isItem hitem k g]
    cases (readItem format k _ g).outcome with
    | error e => rfl
    | ok g' => exact ih (k + 1) g'

def Lists (records : List Record) (format : Format) (document : Json) : Prop :=
  ∃ items, List.Forall₂ (fun r item => r.IsItem format item) records items ∧
    match format with
    | .json => document.field? "segments" = some (arr items)
    | .geojson => document.field? "type" = some (str "FeatureCollection") ∧
        document.field? "features" = some (arr items)

theorem readNamed_of_lists {records : List Record} {document : Json} (h : Lists records format document) :
    (Network.readNamed (.str format.name) document).outcome.toOption =
      records.foldlM (fun g r => r.addTo? g) (Network.empty Network.defaultDigits) := by
  obtain ⟨items, hitems, hdocument⟩ := h
  have hall : itemsOf format document = .ok items := by
    cases format with
    | json => rw [itemsOf, hdocument]
    | geojson =>
      rw [itemsOf, hdocument.1, hdocument.2]
      cases items <;> rfl
  rw [outcome_readNamed, hall, Reading.ok_bind, foldItems_of_isItem hitems]

/-- Whatever records are written down in both formats, both documents make the same network, or neither makes
one. -/
theorem formats_agree {records : List Record} {document collection : Json}
    (hdocument : Lists records .json document) (hcollection : Lists records .geojson collection) :
    (∃ g, (Network.readNamed (.str "json") document).outcome = .ok g ∧
        (Network.readNamed (.str "geojson") collection).outcome = .ok g) ∨
      ∃ e e', (Network.readNamed (.str "json") document).outcome = .error e ∧
        (Network.readNamed (.str "geojson") collection).outcome = .error e' := by
  have hsame := (readNamed_of_lists hdocument).trans (readNamed_of_lists hcollection).symm
  simp only [Format.name] at hsame
  cases hjson : (Network.readNamed (.str "json") document).outcome <;>
    cases hgeojson : (Network.readNamed (.str "geojson") collection).outcome <;>
    rw [hjson, hgeojson] at hsame
  case error.error e e' => exact .inr ⟨e, e', rfl, rfl⟩
  case ok.ok g g' => exact .inl ⟨g, rfl, by rw [Option.some.inj hsame]⟩
  case error.ok => cases hsame
  case ok.error => cases hsame

theorem not_beyondDoubles_of_small {n : Int} (h : Decimal.isFinite (Decimal.floatOfInt n) = true) :
    ¬ (int n).BeyondDoubles := by
  intro hbeyond
  rw [show Decimal.isFinite (Decimal.floatOfInt n) = false from hbeyond] at h
  cases h

def elmStreet : Record where
  id := str " 4"
  start := ⟨int 52, int 13, not_beyondDoubles_of_small (by decide +kernel),
    not_beyondDoubles_of_small (by decide +kernel)⟩
  finish := ⟨str "north", int 14, not_false, not_beyondDoubles_of_small (by decide +kernel)⟩
  tags := [("name", str "Elm Street"), ("lanes", int 2)]
  tags_nameless := by decide

def elmSegments : Json :=
  obj [("segments", arr [
    obj [("id", str " 4"), ("start", arr [int 52, int 13]), ("end", arr [str "north", int 14]),
      ("tags", obj [("name", str "Elm Street"), ("lanes", int 2)])]])]

def elmFeatures : Json :=
  obj [("type", str "FeatureCollection"), ("features", arr [
    obj [("properties", obj [("name", str "Elm Street"), ("id", str " 4"), ("lanes", int 2)]),
      ("geometry", obj [("type", str "LineString"), ("coordinates", arr [
        arr [int 13, int 52, int 30], arr [int 13, int 53], arr [int 14, str "north"]])])]])]

theorem formats_agree_on_elmStreet :
    Lists [elmStreet] .json elmSegments ∧ Lists [elmStreet] .geojson elmFeatures ∧
      ∃ g, (Network.readNamed (.str "json") elmSegments).outcome = .ok g ∧
        (Network.readNamed (.str "geojson") elmFeatures).outcome = .ok g ∧ g.ids = [4] := by
  have hsegments : Lists [elmStreet] .json elmSegments :=
    ⟨_, .cons ⟨rfl, rfl, rfl, rfl⟩ .nil, rfl⟩
  have hfeatures : Lists [elmStreet] .geojson elmFeatures :=
    ⟨_, .cons ⟨⟨[("name", str "Elm Street")], [("lanes", int 2)], rfl, rfl⟩,
      ⟨_, [arr [int 13, int 53]], [int 30], [], rfl, rfl, rfl⟩⟩ .nil, rfl, rfl⟩
  have hids : (Network.readNamed (.str "json") elmSegments).outcome.toOption.map Network.ids = some [4] := by
    decide +kernel
  refine ⟨hsegments, hfeatures, ?_⟩
  rcases formats_agree hsegments hfeatures with ⟨g, hjson, hgeojson⟩ | ⟨e, _, hjson, _⟩
  · rw [hjson] at hids
    exact ⟨g, hjson, hgeojson, Option.some.inj hids⟩
  · rw [hjson] at hids
    cases hids

end RoadNames.Document
