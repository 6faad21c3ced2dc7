import RoadNames.Proofs.Network.Formats
import RoadNames.Proofs.Network.Offence
import RoadNames.Proofs.Network.Search
set_option autoImplicit false

namespace RoadNames

namespace Network

theorem segments_foldl_arrive_of_nodup {arrivals : List Segment} {g : Network}
    (h : (g.ids ++ arrivals.map (·.id)).Nodup) : (arrivals.foldl arrive g).segments = g.segments ++ arrivals := by
  have hnew : (arrivals.filter fun s => s.id ∉ g.ids) = arrivals :=
    List.filter_eq_self.mpr fun s hs => decide_eq_true fun hid =>
      List.disjoint_of_nodup_append h hid (List.mem_map_of_mem hs)
  rw [segments_foldl_arrive, hnew, accepted_of_nodup h.of_append_right]

theorem ids_foldl_arrive_of_nodup {arrivals : List Segment} {g : Network}
    (h : (g.ids ++ arrivals.map (·.id)).Nodup) : (arrivals.foldl arrive g).ids = g.ids ++ arrivals.map (·.id) := by
  simp [ids, segments_foldl_arrive_of_nodup h]

end Network

namespace Document

open Json Network

theorem outcome_foldItems_append {α β : Type} (read : Nat → β → α → Reading α) (k : Nat) (before after : List β)
    (a : α) :
    (Reading.foldItems read k (before ++ after) a).outcome =
      (Reading.foldItems read k before a).outcome >>= fun a =>
        (Reading.foldItems read (k + before.length) after a).outcome := by
  induction before generalizing k a with
  | nil => rfl
  | cons item before ih =>
    rw [List.cons_append, Reading.foldItems, Reading.foldItems, Reading.outcome_bind, Reading.outcome_bind]
    cases (read k item a).outcome with
    | error e => rfl
    | ok a' =>
      have hplace : k + 1 + before.length = k + (item :: before).length := by simp; omega
      rw [Reading.ok_bind, Reading.ok_bind, ih, hplace]

/-- An item has this fault, and the items before it describe segments whose numbers differ from each other and
from those that are taken. -/
def ComesToFault (format : Format) (k : Nat) (taken : List Int) (items : List Json) (fault : DataFault) : Prop :=
  ∃ before item after segments, items = before ++ item :: after ∧
    List.Forall₂ (Describes format) before segments ∧ (taken ++ segments.map (·.id)).Nodup ∧
    Offends format (k + before.length) (taken ++ segments.map (·.id)) item fault

variable {format : Format} {items : List Json} {segments : List Segment}

theorem described_or_comesToFault (format : Format) (k : Nat) {taken : List Int} (htaken : taken.Nodup)
    (items : List Json) :
    (∃ segments, List.Forall₂ (Describes format) items segments ∧ (taken ++ segments.map (·.id)).Nodup) ∨
      ∃ fault, ComesToFault format k taken items fault := by
  induction items generalizing k taken with
  | nil => exact .inl ⟨[], .nil, by simpa using htaken⟩
  | cons item rest ih =>
    rcases describes_or_offends format k taken item with ⟨s, hs, hnew⟩ | ⟨fault, hfault⟩
    · -- From here on the number of this segment is taken too.
      have htaken' : (taken ++ [s.id]).Nodup := by simpa using htaken.concat hnew
      rcases ih (k + 1) htaken' with ⟨segments, hrest, hids⟩ |
        ⟨fault, before, other, after, segments, rfl, hbefore, hids, hother⟩
      · exact .inl ⟨s :: segments, .cons hs hrest, by simpa using hids⟩
      · refine .inr ⟨fault, item :: before, other, after, s :: segments, rfl, .cons hs hbefore,
          by simpa using hids, ?_⟩
        simpa [Nat.add_assoc, Nat.add_comm 1] using hother
    · exact .inr ⟨fault, [], item, rest, [], rfl, .nil, by simpa using htaken, by simpa using hfault⟩

theorem foldItems_of_describes (h : List.Forall₂ (Describes format) items segments)
    (hfits : ∀ item ∈ items, Fits format item) (k : Nat) {g : Network}
    (hids : (g.ids ++ segments.map (·.id)).Nodup) :
    (Reading.foldItems (readItem format) k items g).outcome = .ok (segments.foldl arrive g) ∧
      ∀ n, (Reading.foldItems (readItem format) k items g).WarnsOf n ↔
        ∃ s ∈ segments, n = s.id ∧ (s.start = none ∨ s.finish = none) := by
  induction h generalizing k g with
  | nil => exact ⟨rfl, fun n => by simp [Reading.foldItems]⟩
  | @cons item s rest later hitem _ ih =>
    obtain ⟨hread, hwarns⟩ := readItem_of_describes hitem (hfits item (by simp)) k g
    have hnew : s.id ∉ g.ids := fun hs => (List.disjoint_of_nodup_append hids) hs (by simp)
    rw [addSegment_of_not_mem hnew] at hread
    have hlater : ((g.arrive s).ids ++ later.map (·.id)).Nodup := by
      simpa [ids_arrive_of_not_mem hnew] using hids
    obtain ⟨hrest, hwarnsRest⟩ :=
      ih (fun other hother => hfits other (List.mem_cons_of_mem _ hother)) (k + 1) hlater
    constructor
    · rw [Reading.foldItems, Reading.outcome_bind, hread, Reading.ok_bind, hrest, List.foldl_cons]
    · intro n
      rw [Reading.foldItems, Reading.warnsOf_bind hread, hwarns, hwarnsRest]
      simp

theorem foldItems_of_comesToFault {k : Nat} {g : Network} {fault : DataFault}
    (h : ComesToFault format k g.ids items fault) (hfits : ∀ item ∈ items, Fits format item) :
    (Reading.foldItems (readItem format) k items g).outcome = .error (.data fault) := by
  obtain ⟨before, item, after, segments, rfl, hbefore, hids, hitem⟩ := h
  have hread := (foldItems_of_describes hbefore (fun other hother => hfits other (by simp [hother])) k hids).1
  rw [← ids_foldl_arrive_of_nodup hids] at hitem
  rw [outcome_foldItems_append, hread, Reading.ok_bind, Reading.foldItems, Reading.outcome_bind,
    readItem_of_offends hitem (hfits item (by simp)), Reading.error_bind]

def readItems (format : Format) (items : List Json) : Reading Network :=
  Reading.foldItems (readItem format) 0 items (.empty defaultDigits)

/-- The features are in a list, unless they are missing or the value holds nothing. -/
def FeaturesListed (document : Json) : Prop :=
  ∀ v, document.field? "features" = some v → v.isTrue = true → ∃ items, v = arr items

/-- The document has the outer shape that its format asks for, and these are its items. -/
def Outline (format : Format) (document : Json) (items : List Json) : Prop :=
  match format with
  | .json => document.field? "segments" = some (arr items)
  | .geojson => document.field? "type" = some (str "FeatureCollection") ∧
      (document.field? "features" = some (arr items) ∨
        items = [] ∧ ∀ v, document.field? "features" = some v → v.isTrue = false)

def outlineFault : Format → DataFault
  | .geojson => .notFeatureCollection
  | .json => .noSegmentList

theorem featuresOf_of_listed {value : Option Json}
    (h : value = some (arr items) ∨ items = [] ∧ ∀ v, value = some v → v.isTrue = false) :
    featuresOf value = pure items := by
  rcases h with rfl | ⟨rfl, h⟩
  · cases items <;> rfl
  · cases value with
    | none => rfl
    | some v => simp [featuresOf, h v rfl]

theorem readNamed_of_outline {document : Json} (h : Outline format document items) :
    Network.readNamed (.str format.name) document = readItems format items := by
  cases format with
  | json =>
    show readSegments document = _
    rw [readSegments, h]
    rfl
  | geojson =>
    obtain ⟨htype, hfeatures⟩ := h
    show readFeatures document = _
    rw [readFeatures, htype, featuresOf_of_listed hfeatures, Reading.pure_bind]
    rfl

theorem outcome_readNamed_of_no_outline (format : Format) {document : Json}
    (hlisted : format = .geojson → FeaturesListed document) (h : ∀ items, ¬ Outline format document items) :
    (Network.readNamed (.str format.name) document).outcome = .error (.data (outlineFault format)) := by
  cases format with
  | json =>
    show (readSegments document).outcome = _
    unfold readSegments
    split
    case h_1 items hitems => exact absurd hitems (h items)
    case h_2 => rfl
  | geojson =>
    show (readFeatures document).outcome = _
    unfold readFeatures
    split
    case h_1 htype =>
      exfalso
      by_cases hempty : ∀ v, document.field? "features" = some v → v.isTrue = false
      · exact h [] ⟨htype, .inr ⟨rfl, hempty⟩⟩
      · simp only [not_forall, Bool.not_eq_false] at hempty
        obtain ⟨v, hv, htrue⟩ := hempty
        obtain ⟨items, rfl⟩ := hlisted rfl v hv htrue
        exact h items ⟨htype, .inl hv⟩
    case h_2 => rfl

/-- A reading loses none of its items. It succeeds just if all of them describe segments with different numbers, and
warns of every segment that has no start or no end; else it fails with the first fault there is, which names a
segment just if its number came before. -/
structure Complete (format : Format) (items : List Json) (r : Reading Network) : Prop where
  succeeds : (∃ g, r.outcome = .ok g) ↔
    ∃ segments, List.Forall₂ (Describes format) items segments ∧ (segments.map (·.id)).Nodup
  network : ∀ g, r.outcome = .ok g → List.Forall₂ (Describes format) items g.segments
  warned : ∀ g, r.outcome = .ok g → ∀ s ∈ g.segments, (s.start = none ∨ s.finish = none) ↔ r.WarnsOf s.id
  fails : ∀ e, r.outcome = .error e ↔ ∃ fault, ComesToFault format 0 [] items fault ∧ e = .data fault
  named : ∀ fault, r.outcome = .error (.data fault) →
    ∀ id, fault.segmentId = some id ↔ fault = .duplicateId id

theorem segmentId_of_offends {k : Nat} {taken : List Int} {item : Json} {fault : DataFault}
    (h : Offends format k taken item fault) (id : Int) : fault.segmentId = some id ↔ fault = .duplicateId id := by
  cases h with
  | badAttributes => cases format <;> simp [attributesFault, DataFault.segmentId]
  | _ => simp [DataFault.segmentId]

section
variable (hfits : ∀ item ∈ items, Fits format item)
include hfits

theorem readItems_of_describes (hdescribes : List.Forall₂ (Describes format) items segments)
    (hids : (segments.map (·.id)).Nodup) :
    ∃ g, (readItems format items).outcome = .ok g ∧ g.segments = segments ∧
      ∀ n, (readItems format items).WarnsOf n ↔ ∃ s ∈ segments, n = s.id ∧ (s.start = none ∨ s.finish = none) := by
  obtain ⟨hok, hwarns⟩ := foldItems_of_describes hdescribes hfits 0 (g := .empty defaultDigits) hids
  exact ⟨_, hok, segments_foldl_arrive_of_nodup (g := .empty defaultDigits) hids, hwarns⟩

theorem readItems_of_comesToFault {fault : DataFault} (h : ComesToFault format 0 [] items fault) :
    (readItems format items).outcome = .error (.data fault) :=
  foldItems_of_comesToFault (g := .empty defaultDigits) h hfits

theorem readItems_of_ok {g : Network} (hg : (readItems format items).outcome = .ok g) :
    List.Forall₂ (Describes format) items g.segments ∧ (g.segments.map (·.id)).Nodup ∧
      ∀ n, (readItems format items).WarnsOf n ↔
        ∃ s ∈ g.segments, n = s.id ∧ (s.start = none ∨ s.finish = none) := by
  rcases described_or_comesToFault format 0 List.nodup_nil items with
    ⟨segments, hdescribes, hids⟩ | ⟨fault, hcomes⟩
  · obtain ⟨g', hok, rfl, hwarns⟩ := readItems_of_describes hfits hdescribes hids
    obtain rfl : g = g' := by simpa [hg] using hok
    exact ⟨hdescribes, hids, hwarns⟩
  · rw [readItems_of_comesToFault hfits hcomes] at hg
    cases hg

theorem readItems_of_error {e : LoadError} (he : (readItems format items).outcome = .error e) :
    ∃ fault, ComesToFault format 0 [] items fault ∧ e = .data fault := by
  rcases described_or_comesToFault format 0 List.nodup_nil items with
    ⟨segments, hdescribes, hids⟩ | ⟨fault, hcomes⟩
  · obtain ⟨g, hok, _⟩ := readItems_of_describes hfits hdescribes hids
    rw [hok] at he
    cases he
  · exact ⟨fault, hcomes, by simpa [readItems_of_comesToFault hfits hcomes] using he.symm⟩

theorem complete_readItems : Complete format items (readItems format items) where
  succeeds := by
    constructor
    · rintro ⟨g, hg⟩
      obtain ⟨hdescribes, hids, _⟩ := readItems_of_ok hfits hg
      exact ⟨g.segments, hdescribes, hids⟩
    · rintro ⟨segments, hdescribes, hids⟩
      obtain ⟨g, hok, _⟩ := readItems_of_describes hfits hdescribes hids
      exact ⟨g, hok⟩
  network _ hg := (readItems_of_ok hfits hg).1
  warned g hg s hs := by
    obtain ⟨_, hids, hwarns⟩ := readItems_of_ok hfits hg
    rw [hwarns]
    constructor
    · exact fun hend => ⟨s, hs, rfl, hend⟩
    · -- The number names one segment only.
      rintro ⟨t, ht, hid, hend⟩
      rwa [List.inj_on_of_nodup_map hids hs ht hid]
  fails _ := by
    constructor
    · exact readItems_of_error hfits
    · rintro ⟨fault, hcomes, rfl⟩
      exact readItems_of_comesToFault hfits hcomes
  named fault he := by
    obtain ⟨_, ⟨_, _, _, _, _, _, _, hitem⟩, hsame⟩ := readItems_of_error hfits he
    obtain rfl := LoadError.data.inj hsame
    exact segmentId_of_offends hitem

end

/-- Whatever document is read in whatever format, it is refused for its outer shape or none of its items is
lost. -/
theorem readNamed_complete (format : Format) {document : Json}
    (hlisted : format = .geojson → FeaturesListed document)
    (hfits : ∀ items, Outline format document items → ∀ item ∈ items, Fits format item) :
    (∀ items, Outline format document items →
        Complete format items (Network.readNamed (.str format.name) document)) ∧
      ((∀ items, ¬ Outline format document items) →
        (Network.readNamed (.str format.name) document).outcome = .error (.data (outlineFault format))) := by
  constructor
  · intro items houtline
    rw [readNamed_of_outline houtline]
    exact complete_readItems (hfits items houtline)
  · exact outcome_readNamed_of_no_outline format hlisted

def collectionOf (features : List Json) : Json :=
  obj [("type", str "FeatureCollection"), ("features", arr features)]

theorem outline_collectionOf {features : List Json} (h : Outline .geojson (collectionOf features) items) :
    items = features := by
  rcases h.2 with hfeatures | ⟨rfl, hempty⟩
  · exact (arr.inj (Option.some.inj hfeatures)).symm
  · have hfalse := hempty (arr features) rfl
    cases features with
    | nil => rfl
    | cons => cases hfalse

def bareFeature (id : Json) : Json := obj [("id", id)]

theorem describes_bareFeature {value : Json} {id : Int} (h : value.toInt = .ok id) :
    Describes .geojson (bareFeature value) ⟨id, none, none, []⟩ :=
  ⟨⟨_, [], rfl, .inr ⟨rfl, by simp [attributesKey, Table.get?]⟩, h, .none⟩, rfl, rfl⟩

theorem fits_bareFeature {value : Json} (h : ¬ value.IsInfinity) : Fits .geojson (bareFeature value) := by
  refine ⟨?_, by rintro _ _ ⟨⟩⟩
  rintro _ attributes ⟨⟩ hattributes
  obtain rfl := (hattributes rfl).unique (.inr ⟨rfl, by simp [attributesKey, Table.get?]⟩)
  exact h

def ashRoad : Json := obj [
  ("properties", obj [("id", int 1), ("name", str "Ash Road"), ("lanes", int 2), ("surface", null)]),
  ("geometry", obj [("type", str "LineString"), ("coordinates", arr [arr [int 13, int 52], arr [int 14, int 52]])])]

theorem describes_ashRoad :
    ∃ p q, Describes .geojson ashRoad ⟨1, some p, some q, [("name", str "Ash Road"), ("lanes", str "2")]⟩ := by
  have hstart : (placeOf? .lonFirst (arr [int 13, int 52])).isSome = true := by decide +kernel
  have hfinish : (placeOf? .lonFirst (arr [int 14, int 52])).isSome = true := by decide +kernel
  obtain ⟨p, hp⟩ := Option.isSome_iff_exists.mp hstart
  obtain ⟨q, hq⟩ := Option.isSome_iff_exists.mp hfinish
  have htags : Tagged .geojson [("id", int 1), ("name", str "Ash Road"), ("lanes", int 2), ("surface", null)]
      [("name", str "Ash Road"), ("lanes", str "2")] :=
    .number rfl (.tag (by simp) (by simp) (.tag (by simp) (by simp) (.null .none)))
  exact ⟨p, q, ⟨_, _, rfl, .inl rfl, rfl, htags⟩, hp.symm, hq.symm⟩

theorem fits_ashRoad : Fits .geojson ashRoad := by
  constructor
  · rintro _ attributes ⟨⟩ hattributes
    obtain rfl := (hattributes rfl).unique (.inl rfl)
    exact not_false
  · rintro _ _ ⟨⟩
    have hreached : ∀ {n}, Decimal.isFinite (Decimal.floatOfInt n) = true → ¬ OutOfReach (arr [int n, int 52]) :=
      fun h => not_outOfReach rfl (not_beyondDoubles_of_small h) (not_beyondDoubles_of_small (by decide +kernel))
    exact ⟨hreached (by decide +kernel), hreached (by decide +kernel)⟩

theorem readNamed_complete_on_roads :
    (∃ g, (Network.readNamed (.str "geojson") (collectionOf [ashRoad, bareFeature (str "2")])).outcome = .ok g ∧
        g.ids = [1, 2] ∧ g.segments.map (·.tags) = [[("name", str "Ash Road"), ("lanes", str "2")], []] ∧
        ∀ s ∈ g.segments,
          (Network.readNamed (.str "geojson") (collectionOf [ashRoad, bareFeature (str "2")])).WarnsOf s.id ↔
            s.id = 2) ∧
      (Network.readNamed (.str "geojson")
        (collectionOf [ashRoad, bareFeature (str "2"), bareFeature (bool true)])).outcome =
          .error (.data (.duplicateId 1)) := by
  obtain ⟨p, q, hash⟩ := describes_ashRoad
  have hsecond : Describes .geojson (bareFeature (str "2")) ⟨2, none, none, []⟩ := describes_bareFeature rfl
  have hthird : Describes .geojson (bareFeature (bool true)) ⟨1, none, none, []⟩ := describes_bareFeature rfl
  have hcomplete : ∀ features, (∀ item ∈ features, Fits .geojson item) →
      Complete .geojson features (Network.readNamed (.str "geojson") (collectionOf features)) := by
    intro features hfits
    refine (readNamed_complete .geojson ?_ ?_).1 features ⟨rfl, .inl rfl⟩
    · rintro - v ⟨⟩ -
      exact ⟨features, rfl⟩
    · intro items houtline
      rwa [outline_collectionOf houtline]
  have hfits : Fits .geojson (bareFeature (str "2")) ∧ Fits .geojson (bareFeature (bool true)) :=
    ⟨fits_bareFeature not_false, fits_bareFeature not_false⟩
  have hunique : Relator.RightUnique (Describes .geojson) := fun _ _ _ => Describes.unique
  have hids : ([⟨1, some p, some q, [("name", str "Ash Road"), ("lanes", str "2")]⟩,
      ⟨2, none, none, []⟩].map Segment.id).Nodup := by simp
  constructor
  · have htwo := hcomplete [ashRoad, bareFeature (str "2")] (by simp [fits_ashRoad, hfits])
    obtain ⟨g, hg⟩ := htwo.succeeds.mpr ⟨_, .cons hash (.cons hsecond .nil), hids⟩
    have hsegments := List.right_unique_forall₂' hunique (htwo.network g hg) (.cons hash (.cons hsecond .nil))
    refine ⟨g, hg, by simp [Network.ids, hsegments], by simp [hsegments], fun s hs => ?_⟩
    rw [← htwo.warned g hg s hs]
    rw [hsegments] at hs
    obtain rfl | rfl : s = ⟨1, _, _, _⟩ ∨ s = ⟨2, _, _, _⟩ := by simpa using hs
    all_goals simp
  · have hthree := hcomplete [ashRoad, bareFeature (str "2"), bareFeature (bool true)]
      (by simp [fits_ashRoad, hfits])
    refine (hthree.fails _).mpr ⟨_, ⟨[ashRoad, bareFeature (str "2")], _, [], _, rfl,
      .cons hash (.cons hsecond .nil), hids, .duplicate hthird (by simp)⟩, rfl⟩

end Document

end RoadNames
