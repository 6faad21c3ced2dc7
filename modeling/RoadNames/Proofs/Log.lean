import RoadNames.Log
set_option autoImplicit false

namespace RoadNames.Log

abbrev Place := Option Json × Option Json

def placeIn (fields : Json.Fields) : Place := (Table.get? fields "seq", Table.get? fields "segment_id")

def hasTitle (title : String) (record : Json.Fields) : Bool :=
  match Table.get? record "msg" with
  | some (.str msg) => msg == title
  | _ => false

/-- The places that the records of one kind are about, in the order of the records. -/
def places (title : String) (records : List Json.Fields) : List Place :=
  (records.filter (hasTitle title)).map placeIn

/-- The fields of an event have different names, and none that every record has. -/
def Event.Plain (e : Event) : Prop :=
  ("level" :: "msg" :: "logger" :: "run_id" :: Table.keys e.fields).Nodup

variable {l : Logger} {s : Settings} {title : String} {e : Event} {told events : List Event}

theorem record_of_plain (s : Settings) (h : e.Plain) :
    record s e = [("level", .str e.level.name), ("msg", .str e.title), ("logger", .str Logger.name),
      ("run_id", .str s.run)] ++ e.fields := by
  have hown : Table.setAll [("run_id", Json.str s.run)] e.fields = [("run_id", Json.str s.run)] ++ e.fields :=
    Table.setAll_of_nodup h.of_cons.of_cons.of_cons
  rw [record, hown, Table.setAll_of_nodup (by simpa [Table.keys, Event.Plain] using h)]
  rfl

theorem hasTitle_record (s : Settings) (h : e.Plain) : hasTitle title (record s e) = (e.title == title) := by
  simp [record_of_plain s h, hasTitle, Table.get?]

theorem placeIn_record (s : Settings) (h : e.Plain) : placeIn (record s e) = placeIn e.fields := by
  simp [record_of_plain s h, placeIn, Table.get?]

theorem places_append (others : List Event) :
    places title (records l s (events ++ others)) =
      places title (records l s events) ++ places title (records l s others) := by
  simp only [places, records, List.filter_append, List.map_append]

theorem places_flatMap {α : Type} (xs : List α) (f : α → List Event) :
    places title (records l s (xs.flatMap f)) = xs.flatMap fun x => places title (records l s (f x)) := by
  simp only [places, records, List.filter_flatMap, List.map_flatMap]

theorem places_singleton (h : e.Plain) :
    places title (records l s [e]) =
      if e.title == title && (s.selects e && l.admits e.level) then [placeIn e.fields] else [] := by
  cases hkept : s.selects e && l.admits e.level
  · simp [places, records, hkept]
  · cases htitle : e.title == title <;>
      simp [places, records, hkept, hasTitle_record s h, placeIn_record s h, htitle]

theorem places_of_title_ne (h : e.Plain) (hne : e.title ≠ title) : places title (records l s [e]) = [] := by
  simp [places_singleton h, hne]

theorem Event.plain_segmentStart (id : Json) (position : Int) : (Event.segmentStart id position).Plain := by
  simp [Event.Plain, Event.fields, Table.keys]

theorem Logger.admits_debug_iff (level : Level) :
    (Logger.fresh.withLevel level).admits .debug = true ↔ level = .debug := by
  cases level <;> decide

theorem Logger.admits_info_iff (level : Level) :
    (Logger.fresh.withLevel level).admits .info = true ↔ level = .debug ∨ level = .info := by
  cases level <;> decide

theorem Logger.admits_error {level : Level} (h : level ≠ .critical) :
    (Logger.fresh.withLevel level).admits .error = true := by
  cases level <;> first | decide | exact absurd rfl h

theorem Logger.withLevel_of_ne_fresh {earlier : Logger} (h : earlier ≠ .fresh) (level : Level) :
    earlier.withLevel level = earlier := by
  obtain ⟨threshold⟩ := earlier
  cases threshold with
  | none => exact absurd rfl h
  | some rank => rfl

/-- Starts are begun with while others are still being checked. -/
def Event.isProgress : Event → Bool
  | .segmentStart .. => true
  | _ => false

/-- Starts are begun with by many workers, so that their progress is told at any time. All else is told in its
order. -/
structure Reordered (told events : List Event) : Prop where
  results : events.filter (!·.isProgress) = told.filter (!·.isProgress)
  progress : (events.filter (·.isProgress)).Perm (told.filter (·.isProgress))

theorem Reordered.refl (events : List Event) : Reordered events events := ⟨rfl, .refl _⟩

theorem Reordered.perm (h : Reordered told events) : events.Perm told :=
  (List.filter_append_perm (·.isProgress) events).symm.trans <|
    (h.progress.append (.of_eq h.results)).trans (List.filter_append_perm (·.isProgress) told)

theorem Reordered.places_perm (h : Reordered told events) :
    (places title (records l s events)).Perm (places title (records l s told)) :=
  (((h.perm.filter _).map _).filter _).map _

theorem hasTitle_of_isProgress (h : e.isProgress = true) (htitle : title ≠ "segment_start") :
    hasTitle title (record s e) = false := by
  cases e <;> cases h
  rw [hasTitle_record s (Event.plain_segmentStart _ _)]
  simpa [Event.title] using htitle.symm

theorem Reordered.places_eq (h : Reordered told events) (htitle : title ≠ "segment_start") :
    places title (records l s events) = places title (records l s told) := by
  have hresults : ∀ events : List Event, places title (records l s events) =
      places title (records l s (events.filter (!·.isProgress))) := by
    -- Progress has a title of its own, so that these records are the same without it.
    intro events
    simp only [places, records, List.filter_map, List.filter_filter]
    congr 2
    refine List.filter_congr fun e _ => ?_
    cases hprogress : e.isProgress
    · simp
    · simp [hasTitle_of_isProgress hprogress htitle]
  rw [hresults events, h.results, ← hresults told]

end RoadNames.Log
