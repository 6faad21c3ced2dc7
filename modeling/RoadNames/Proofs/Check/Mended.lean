import RoadNames.Proofs.Task.Changes
set_option autoImplicit false

namespace RoadNames

def Segment.retag (tagsOf : Segment → Json.Fields) (s : Segment) : Segment :=
  { s with tags := tagsOf s }

section Projections

variable (tagsOf : Segment → Json.Fields) (s : Segment)

@[simp] theorem Segment.id_retag : (s.retag tagsOf).id = s.id := rfl

@[simp] theorem Segment.start_retag : (s.retag tagsOf).start = s.start := rfl

@[simp] theorem Segment.finish_retag : (s.retag tagsOf).finish = s.finish := rfl

end Projections

namespace Network

/-- The indexes hold numbers and places, so that they stay as they are. -/
def retag (g : Network) (tagsOf : Segment → Json.Fields) : Network :=
  { g with segments := g.segments.map (Segment.retag tagsOf) }

variable (g : Network) (tagsOf : Segment → Json.Fields)

theorem ids_retag : (g.retag tagsOf).ids = g.ids := by
  simp [ids, retag]

theorem segment?_retag :
    (g.retag tagsOf).segment? = fun id => (g.segment? id).map (Segment.retag tagsOf) :=
  funext fun _ => List.find?_map

theorem connected_retag (s : Segment) :
    (g.retag tagsOf).connected (s.retag tagsOf) = (g.connected s).map (Segment.retag tagsOf) := by
  unfold connected
  rw [List.map_filterMap, segment?_retag]
  rfl

theorem expandWithin_retag (s : Segment) (limit : Distance) (u : Segment) :
    (g.retag tagsOf).expandWithin (s.retag tagsOf) limit (u.retag tagsOf) =
      (g.expandWithin s limit u).map (·.map (Segment.retag tagsOf)) := by
  have hprimary : ∀ ts : List Segment, (ts.map (Segment.retag tagsOf)).filter Segment.isPrimary =
      (ts.filter Segment.isPrimary).map (Segment.retag tagsOf) := fun ts => List.filter_map
  simp only [expandWithin, expandThrough, connected_retag, hprimary, Segment.start_retag,
    Segment.finish_retag, Segment.id_retag]
  cases s.start with
  | none => rfl
  | some origin =>
    cases u.finish with
    | none => rfl
    | some place => by_cases hle : place.distanceTo origin ≤ limit <;> simp [hle, Except.map]

theorem byId_retag (s : Segment) (limit : Distance) :
    (g.retag tagsOf).byId ((g.retag tagsOf).expandWithin (s.retag tagsOf) limit) =
      g.byId (g.expandWithin s limit) := by
  funext id
  simp only [byId, segment?_retag]
  cases g.segment? id with
  | none => rfl
  | some u =>
    simp only [Option.map_some, expandWithin_retag]
    cases g.expandWithin s limit u with
    | error fault => rfl
    | ok ts => simp [Except.map, Function.comp_def]

theorem collect_retag (s : Segment) (limit : Distance) :
    (g.retag tagsOf).collect (s.retag tagsOf) limit =
      (g.collect s limit).map (·.map (Segment.retag tagsOf)) := by
  simp only [collect, collectBy, byId_retag, ids_retag, Segment.id_retag]
  cases Walk.walk (g.byId (g.expandWithin s limit)) g.ids s.id with
  | error fault => rfl
  | ok ids => simp [Except.map, List.map_filterMap, segment?_retag]

end Network

theorem Names.inconsistentNames_self (name : Option String) : inconsistentNames name name = false := by
  refine Bool.eq_false_iff.mpr fun h => ?_
  obtain ⟨a, b, rfl, hb, hab⟩ := (inconsistentNames_iff _ _).mp h
  obtain rfl : a = b := Option.some.inj hb
  exact ((inconsistent_iff _ _).mp hab).2.2.1.ne rfl

namespace Segment

theorem not_blank_of_name {s : Segment} {name : String} (h : s.name = some name) :
    name.toList.all Text.isBlank = false := by
  unfold Segment.name at h
  split at h
  · cases h
  · cases h
  · split at h
    · cases h
    · rename_i hblank
      obtain rfl := Option.some.inj h
      exact Bool.eq_false_iff.mpr hblank

theorem name_of_tag {s : Segment} {name : String} (htag : Table.get? s.tags nameKey = some (.str name))
    (hblank : name.toList.all Text.isBlank = false) : s.name = some name := by
  simp [Segment.name, htag, Json.plainText, hblank]

def revisedTags (changes : List Change) (s : Segment) : Json.Fields :=
  changes.foldl (Change.apply s.id) s.tags

theorem retag_revisedTags_of_ne {s : Segment} {changes : List Change} (h : ∀ c ∈ changes, c.id ≠ s.id) :
    s.retag (revisedTags changes) = s := by
  unfold retag revisedTags
  rw [Change.foldl_apply_of_ne h]

end Segment

/-- The network once some changes are made to the tags of its segments. -/
def Network.revised (g : Network) (changes : List Change) : Network := g.retag (Segment.revisedTags changes)

namespace Flag

variable {f : Flag}

theorem exists_of_mem_fixes {c : Change} (h : c ∈ f.fixes) : ∃ t ∈ f.flagged, t.id = c.id := by
  obtain ⟨t, ht, rfl⟩ := List.mem_map.mp h
  exact ⟨t, ht, rfl⟩

theorem name_revised {name : String} (hname : f.start.name = some name) {t : Segment}
    (ht : t ∈ f.flagged) : (t.retag (Segment.revisedTags f.fixes)).name = some name := by
  refine Segment.name_of_tag ?_ (Segment.not_blank_of_name hname)
  rw [fixes_eq hname]
  exact Change.get?_foldl_setTag (List.mem_map_of_mem ht) _ _ _

end Flag

namespace Check

open Network

variable {g : Network} {s : Segment}

theorem misspelt_revised {f : Flag} {limit : Distance} (hg : g.Sound) (hexact : f.Exact g s limit)
    {nearby : List Segment} (hnearby : ∀ t ∈ nearby, g.Reaches s limit t) :
    misspelt s (nearby.map (Segment.retag (Segment.revisedTags f.fixes))) = [] := by
  obtain ⟨name, hname, _⟩ := hexact.fixes
  refine List.eq_nil_iff_forall_not_mem.mpr fun t' ht' => ?_
  obtain ⟨hmem, hnames⟩ := (mem_misspelt _ _ _).mp ht'
  obtain ⟨t, ht, rfl⟩ := List.mem_map.mp hmem
  -- no new name comes from anywhere but the start, so that nothing new can be misspelt
  by_cases hflagged : t ∈ f.flagged
  · rw [Flag.name_revised (hexact.start ▸ hname) hflagged, hname, Names.inconsistentNames_self] at hnames
    cases hnames
  · have hother : ∀ c ∈ f.fixes, c.id ≠ t.id := by
      intro c hc hid
      obtain ⟨u, hu, huc⟩ := Flag.exists_of_mem_fixes hc
      have hreach := ((hexact.flagged u).mp hu).1
      have hut := eq_of_id_eq hg.numbered hreach.mem_segments (hnearby t ht).mem_segments (huc.trans hid)
      exact hflagged (hut ▸ hu)
    rw [Segment.retag_revisedTags_of_ne hother] at hnames
    exact hflagged ((hexact.flagged t).mpr ⟨hnearby t ht, hnames⟩)

/-- Once the fixes of a flag are made, its start is as it was, the search from it finds the same numbers
as before, and it has no flag. -/
theorem flag_revised (c : Check) (hg : g.Built) (hs : s ∈ g.segments) {f : Flag}
    (hflag : c.flag g s = .ok (some f)) :
    (g.revised f.fixes).segment? s.id = some s ∧
    ∃ before after, g.collect s c.limit = .ok before ∧
      (g.revised f.fixes).collect s c.limit = .ok after ∧
      after.map (·.id) = before.map (·.id) ∧ c.flag (g.revised f.fixes) s = .ok none := by
  obtain ⟨hvalid, nearby, hwalk, _⟩ := exists_of_flag hflag
  have hexact := exact_of_flag hg.sound hs hflag
  have hself : s.retag (Segment.revisedTags f.fixes) = s := by
    refine Segment.retag_revisedTags_of_ne fun change hc hid => ?_
    obtain ⟨t, ht, htc⟩ := Flag.exists_of_mem_fixes hc
    exact hexact.id_ne ht (htc.trans hid)
  have hagain : (g.revised f.fixes).collect s c.limit =
      .ok (nearby.map (Segment.retag (Segment.revisedTags f.fixes))) := by
    have h := g.collect_retag (Segment.revisedTags f.fixes) s c.limit
    rw [hself, hwalk] at h
    exact h
  have hnone := misspelt_revised hg.sound hexact
    fun t ht => (mem_collect_iff hg.sound.numbered hs hwalk t).mp ht
  refine ⟨?_, nearby, _, hwalk, hagain, by simp, ?_⟩
  · simp only [revised, segment?_retag, segment?_of_mem hg.sound.numbered hs, Option.map_some, hself]
  · exact (flagBy_of_ok hvalid hagain).trans (by rw [hnone]; rfl)

theorem flag_revised_misspeltRoads :
    ∃ f, misspeltRoads.Built ∧ maimStreet ∈ misspeltRoads.segments ∧
      unlimited.flag misspeltRoads maimStreet = .ok (some f) ∧
      (misspeltRoads.revised f.fixes).segment? 1 = some maimStreet ∧
      (∃ before after, misspeltRoads.collect maimStreet .greatest = .ok before ∧
        (misspeltRoads.revised f.fixes).collect maimStreet .greatest = .ok after ∧
        after.map (·.id) = before.map (·.id) ∧
        unlimited.flag (misspeltRoads.revised f.fixes) maimStreet = .ok none) ∧
      mainStreet ∈ f.flagged := by
  obtain ⟨f, hflag, hmain⟩ := exists_flag_maimStreet
  obtain ⟨hsame, hrest⟩ := flag_revised unlimited built_misspeltRoads maimStreet_mem_segments hflag
  exact ⟨f, built_misspeltRoads, maimStreet_mem_segments, hflag, hsame, hrest, hmain⟩

end Check

end RoadNames
