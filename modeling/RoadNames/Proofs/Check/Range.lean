import RoadNames.Proofs.Check.Flag
import RoadNames.Proofs.Network.Connected
set_option autoImplicit false

namespace RoadNames

namespace Network

open Relation Walk

variable {g : Network} {s : Segment}

section Limit

variable {near far : Distance} {u t : Segment}

theorem EndsWithin.mono (h : near ≤ far) (hu : EndsWithin s near u) : EndsWithin s far u := by
  obtain ⟨origin, place, hstart, hfinish, hle⟩ := hu
  exact ⟨origin, place, hstart, hfinish, Distance.le_trans hle h⟩

theorem Link.mono (h : near ≤ far) (hlink : g.Link s near u t) : g.Link s far u t :=
  ⟨hlink.near.mono h, hlink.joined, hlink.primary⟩

theorem Reaches.mono (h : near ≤ far) (ht : g.Reaches s near t) : g.Reaches s far t :=
  ⟨ht.1, TransGen.mono (fun _ _ hlink => Link.mono h hlink) _ _ ht.2⟩

theorem Blocked.mono (h : near ≤ far) (hblocked : g.Blocked s near) : g.Blocked s far := by
  rcases hblocked with hstart | hfinish | ⟨t, ht, hfinish⟩
  · exact .inl hstart
  · exact .inr (.inl hfinish)
  · exact .inr (.inr ⟨t, ht.mono h, hfinish⟩)

theorem collect_fails_of_le (hids : g.ids.Nodup) (hs : s ∈ g.segments) (h : near ≤ far) {fault : DataFault}
    (hnear : g.collect s near = .error fault) : ∃ fault, g.collect s far = .error fault :=
  collect_fails_of_blocked hids hs ((blocked_of_collect_error hids hs hnear).mono h)

theorem collect_subset_of_le (hids : g.ids.Nodup) (hs : s ∈ g.segments) (h : near ≤ far)
    {found : List Segment} (hfar : g.collect s far = .ok found) :
    ∃ nearby, g.collect s near = .ok nearby ∧ nearby ⊆ found := by
  cases hnear : g.collect s near with
  | error fault =>
    obtain ⟨fault', hfault⟩ := collect_fails_of_le hids hs h hnear
    rw [hfar] at hfault
    cases hfault
  | ok nearby =>
    refine ⟨nearby, rfl, fun t ht => ?_⟩
    rw [mem_collect_iff hids hs hnear] at ht
    exact (mem_collect_iff hids hs hfar t).mpr (ht.mono h)

end Limit

section Later

/-- A search from `start` goes on from `u`: it comes to `u`, and `u` ends within the limit. -/
structure GoesOn (g : Network) (start : Segment) (limit : Distance) (u : Segment) : Prop where
  reached : u = start ∨ g.Reaches start limit u
  near : EndsWithin start limit u

variable {limit : Distance} {t u : Segment}

theorem atNode_indexEnds_of_not_endsAt {digits : Int} {node : Node} (h : ¬ t.EndsAt digits node)
    (nodes : Table Node (List Int)) : atNode (indexEnds digits nodes t) node = atNode nodes node := by
  rw [← Segment.exists_mem_ends_iff] at h
  unfold indexEnds
  generalize t.ends = places at h
  induction places generalizing nodes with
  | nil => rfl
  | cons p places ih =>
    have hp : p.node digits ≠ node := fun hnode => h ⟨p, List.mem_cons_self, hnode⟩
    have hplaces : ¬ ∃ q ∈ places, q.node digits = node := fun ⟨q, hq, hnode⟩ =>
      h ⟨q, List.mem_cons_of_mem p hq, hnode⟩
    rw [List.foldl_cons, ih _ hplaces, atNode_set, if_neg hp]

theorem atNode_arrive_of_not_endsAt {node : Node} (h : ¬ t.EndsAt g.digits node) :
    atNode (g.arrive t).nodes node = atNode g.nodes node := by
  rcases add_cases g t with ⟨hmem, _⟩ | ⟨_, he⟩
  · rw [arrive_of_mem hmem]
  · have hnodes : (g.arrive t).nodes = indexEnds g.digits g.nodes t := by simp [arrive, he]
    rw [hnodes, atNode_indexEnds_of_not_endsAt h]

theorem segment?_arrive_of_mem {id : Int} (hid : id ∈ g.ids) (t : Segment) :
    (g.arrive t).segment? id = g.segment? id := by
  by_cases ht : t.id ∈ g.ids
  · rw [arrive_of_mem ht]
  · have hne : t.id ≠ id := fun heq => ht (heq ▸ hid)
    simp [segment?, segments_arrive_of_not_mem ht, hne]

theorem connected_arrive_of_not_meets (hg : g.Sound) (h : ¬ u.Meets g.digits t) :
    (g.arrive t).connected u = g.connected u := by
  have htouching : ((u.start.toList ++ u.finish.toList).flatMap fun p =>
      atNode (g.arrive t).nodes (p.node (g.arrive t).digits)) =
        (u.start.toList ++ u.finish.toList).flatMap fun p => atNode g.nodes (p.node g.digits) := by
    refine List.flatMap_congr fun p hp => ?_
    rw [digits_arrive]
    refine atNode_arrive_of_not_endsAt fun hend => h ?_
    obtain ⟨q, hq, hnode⟩ := hend
    exact ⟨p, q, (u.mem_places_iff p).mp hp, hq, hnode.symm⟩
  simp only [connected, htouching]
  refine List.filterMap_congr fun id hid => segment?_arrive_of_mem ?_ t
  obtain ⟨p, _, hp⟩ := List.mem_flatMap.mp (List.mem_filter.mp (List.mem_eraseDups.mp hid)).1
  obtain ⟨r, hr, rfl, _⟩ := (hg.indexed _ _).mp hp
  exact List.mem_map_of_mem hr

theorem connected_foldl_arrive (hg : g.Sound) {later : List Segment} (h : ∀ t ∈ later, ¬ u.Meets g.digits t) :
    (later.foldl arrive g).connected u = g.connected u := by
  induction later generalizing g with
  | nil => rfl
  | cons t later ih =>
    have hlater : ∀ r ∈ later, ¬ u.Meets (g.arrive t).digits r := fun r hr => by
      rw [digits_arrive]
      exact h r (List.mem_cons_of_mem t hr)
    rw [List.foldl_cons, ih (hg.arrive t) hlater,
      connected_arrive_of_not_meets hg (h t List.mem_cons_self)]

theorem segment?_foldl_arrive_of_mem {id : Int} (hid : id ∈ g.ids) (later : List Segment) :
    (later.foldl arrive g).segment? id = g.segment? id := by
  induction later generalizing g with
  | nil => rfl
  | cons t later ih =>
    have hid' : id ∈ (g.arrive t).ids := (mem_ids_foldl_arrive [t] g id).mpr (.inl hid)
    rw [List.foldl_cons, ih hid', segment?_arrive_of_mem hid]

theorem expandThrough_congr {neighbours other : Segment → List Segment}
    (h : EndsWithin s limit u → other u = neighbours u) :
    expandThrough other s limit u = expandThrough neighbours s limit u := by
  unfold expandThrough
  cases hstart : s.start with
  | none => rfl
  | some origin =>
    cases hfinish : u.finish with
    | none => rfl
    | some place =>
      by_cases hle : place.distanceTo origin ≤ limit
      · simp only [hle, ↓reduceIte, h ⟨origin, place, hstart, hfinish, hle⟩]
      · simp only [hle, ↓reduceIte]

/-- Segments that arrive later make no difference to a search, if none of them shares a node with one that
the search goes on from. -/
theorem collect_foldl_arrive (hg : g.Sound) (hs : s ∈ g.segments) {later : List Segment}
    (h : ∀ t ∈ later, ∀ u, g.GoesOn s limit u → ¬ u.Meets g.digits t) :
    (later.foldl arrive g).collect s limit = g.collect s limit := by
  have hin := inside_expandWithin g s limit
  have hids := hg.numbered
  have hids' := nodup_ids_foldl_arrive later hids
  have hkept : ∀ id ∈ g.ids, (later.foldl arrive g).segment? id = g.segment? id :=
    fun id hid => segment?_foldl_arrive_of_mem hid later
  have hsame : ∀ id, ReflTransGen (Step (g.byId (g.expandWithin s limit))) s.id id →
      (later.foldl arrive g).byId ((later.foldl arrive g).expandWithin s limit) id =
        g.byId (g.expandWithin s limit) id := by
    intro id hid
    obtain ⟨u, hu, rfl⟩ := (reflTransGen_byId_iff hids hin hs id).mp hid
    have hmem := mem_of_chain hin hs hu
    rw [step_expandWithin] at hu
    have hexpand : (later.foldl arrive g).expandWithin s limit u = g.expandWithin s limit u :=
      expandThrough_congr fun hend => connected_foldl_arrive hg fun t ht =>
        h t ht u ⟨eq_or_reaches hids hs hu, hend⟩
    simp only [byId, hkept u.id (List.mem_map_of_mem hmem), segment?_of_mem hids hmem, hexpand]
  have hwalk := walk_congr hsame (fun _ _ => step_byId_mem hin)
    (fun _ _ hstep => (mem_ids_foldl_arrive later g _).mpr (.inl (step_byId_mem hin hstep)))
  unfold collect collectBy
  rw [hwalk]
  cases hfound : walk (g.byId (g.expandWithin s limit)) g.ids s.id with
  | error fault => rfl
  | ok ids =>
    refine congrArg Except.ok (List.filterMap_congr fun id hid => hkept id ?_)
    obtain ⟨_, hreach⟩ := (mem_walk_iff (fun _ _ => step_byId_mem hin) hfound id).mp hid
    obtain ⟨j, _, hstep⟩ := TransGen.tail'_iff.mp hreach
    exact step_byId_mem hin hstep

end Later

end Network

namespace Check

open Network

variable {g : Network} {s : Segment}

theorem inconsistent_subset_of_le (hids : g.ids.Nodup) (hs : s ∈ g.segments) {near far : Distance}
    (h : near ≤ far) (challenge : String) {hits : List Segment}
    (hhits : (Check.mk far challenge).inconsistent g s = .ok hits) :
    ∃ nearby, (Check.mk near challenge).inconsistent g s = .ok nearby ∧ nearby ⊆ hits := by
  unfold inconsistent at hhits ⊢
  cases hname : s.name with
  | none =>
    rw [inconsistentBy_of_unnamed _ _ hname]
    exact ⟨[], rfl, List.nil_subset hits⟩
  | some name =>
    rw [inconsistentBy_of_name _ _ hname] at hhits ⊢
    cases hfar : g.collect s far with
    | error fault =>
      rw [hfar] at hhits
      cases hhits
    | ok found =>
      rw [hfar] at hhits
      cases hhits
      obtain ⟨nearby, hnear, hsubset⟩ := collect_subset_of_le hids hs h hfar
      exact ⟨misspelt s nearby, by rw [hnear]; rfl, misspelt_subset hsubset s⟩

/-- A search with a smaller limit succeeds wherever one with a greater limit does, and finds nothing else;
so it is with the misspelt names that a check finds. -/
theorem search_widened (hg : g.Built) (hs : s ∈ g.segments) {near far : Distance} (h : near ≤ far)
    (challenge : String) :
    (∀ found, g.collect s far = .ok found →
      ∃ nearby, g.collect s near = .ok nearby ∧ nearby ⊆ found) ∧
    (∀ hits, (Check.mk far challenge).inconsistent g s = .ok hits →
      ∃ nearby, (Check.mk near challenge).inconsistent g s = .ok nearby ∧ nearby ⊆ hits) ∧
    ((∃ fault, g.collect s near = .error fault) → ∃ fault, g.collect s far = .error fault) := by
  have hids := hg.sound.numbered
  refine ⟨fun _ => collect_subset_of_le hids hs h, fun _ => inconsistent_subset_of_le hids hs h challenge,
    fun hfail => ?_⟩
  obtain ⟨fault, hfault⟩ := hfail
  exact collect_fails_of_le hids hs h hfault

theorem search_widened_misspeltRoads :
    misspeltRoads.Built ∧ maimStreet ∈ misspeltRoads.segments ∧ Distance.zero ≤ Distance.greatest ∧
      ∃ found nearby, misspeltRoads.collect maimStreet .greatest = .ok found ∧
        misspeltRoads.collect maimStreet .zero = .ok nearby ∧ nearby ⊆ found ∧
        mainStreet ∈ found := by
  obtain ⟨f, hflag, _⟩ := exists_flag_maimStreet
  obtain ⟨_, found, hfound, _⟩ := exists_of_flag hflag
  obtain ⟨hcollect, _⟩ := search_widened built_misspeltRoads maimStreet_mem_segments
    (Distance.le_greatest .zero) defaultChallenge
  obtain ⟨nearby, hnearby, hsubset⟩ := hcollect found hfound
  have hmain := (mem_collect_iff built_misspeltRoads.sound.numbered maimStreet_mem_segments hfound mainStreet).mpr
    maimStreet_reaches_mainStreet
  exact ⟨built_misspeltRoads, maimStreet_mem_segments, Distance.le_greatest .zero, found, nearby, hfound, hnearby,
    hsubset, hmain⟩

theorem flagBy_congr (c : Check) {search other : Search} (h : search s c.limit = other s c.limit) :
    c.flagBy search s = c.flagBy other s := by
  simp only [flagBy, inconsistentBy, h]

/-- Segments that are added later, none of which shares a node with a segment that the search goes on from,
change nothing of what becomes of a start, be it a flag, none or a failure. One whose number is taken is
refused. -/
theorem flag_extended (c : Check) (hg : g.Built) (hs : s ∈ g.segments) {later : List Segment}
    (hclear : ∀ t ∈ later, ∀ u, g.GoesOn s c.limit u → ¬ u.Meets g.digits t) :
    c.flag (later.foldl arrive g) s = c.flag g s :=
  flagBy_congr c (collect_foldl_arrive hg.sound hs hclear)

def north : Location := ⟨1, 0, by decide +kernel, by decide +kernel⟩

def remoteLane : Segment := ⟨3, some north, none, [("name", .str "Mail Street")]⟩

theorem not_meets_remoteLane {u : Segment} (hu : u ∈ misspeltRoads.segments) : ¬ u.Meets 7 remoteLane := by
  rintro ⟨p, q, hp, hq, hnode⟩
  have hends : p = west ∨ p = east := by
    simp only [segments_misspeltRoads, List.mem_cons, List.not_mem_nil, or_false] at hu
    rcases hu with rfl | rfl <;> rcases hp with hp | hp <;> cases hp <;> simp
  have hnorth : q = north := by
    rcases hq with hq | hq <;> cases hq
    rfl
  subst hnorth
  rcases hends with rfl | rfl
  · exact absurd hnode (by decide +kernel)
  · exact absurd hnode (by decide +kernel)

theorem flag_extended_misspeltRoads :
    misspeltRoads.Built ∧ maimStreet ∈ misspeltRoads.segments ∧
      misspeltRoads.GoesOn maimStreet .greatest maimStreet ∧
      (∀ t ∈ [remoteLane], ∀ u, misspeltRoads.GoesOn maimStreet .greatest u →
        ¬ u.Meets misspeltRoads.digits t) ∧
      remoteLane ∈ ([remoteLane].foldl arrive misspeltRoads).segments ∧
      ∃ f, unlimited.flag ([remoteLane].foldl arrive misspeltRoads) maimStreet = .ok (some f) ∧
        mainStreet ∈ f.flagged := by
  have hgoes : misspeltRoads.GoesOn maimStreet .greatest maimStreet :=
    ⟨.inl rfl, west, east, rfl, rfl, Distance.le_greatest _⟩
  have hclear : ∀ t ∈ [remoteLane], ∀ u, misspeltRoads.GoesOn maimStreet .greatest u →
      ¬ u.Meets misspeltRoads.digits t := by
    intro t ht u hu
    rw [List.mem_singleton.mp ht]
    refine not_meets_remoteLane ?_
    rcases hu.reached with rfl | hreach
    · exact maimStreet_mem_segments
    · exact hreach.mem_segments
  have hadded : ([remoteLane].foldl arrive misspeltRoads).segments = [maimStreet, mainStreet, remoteLane] := rfl
  obtain ⟨f, hflag, hmain⟩ := exists_flag_maimStreet
  have hsame := flag_extended unlimited built_misspeltRoads maimStreet_mem_segments hclear
  exact ⟨built_misspeltRoads, maimStreet_mem_segments, hgoes, hclear, by rw [hadded]; simp, f,
    hsame.trans hflag, hmain⟩

end Check

end RoadNames
