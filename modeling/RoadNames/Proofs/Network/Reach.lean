import RoadNames.Proofs.Network.Index
import RoadNames.Proofs.Network.Walk
set_option autoImplicit false

/-!
The reach of a segment. It is said by chains of neighbours, each of which ends near where the first one
starts, and a search comes out with all of it unless something in it has no end.
-/

namespace RoadNames

namespace Network

open Relation Walk

section Search

variable {ε : Type} {g : Network} {expand : Segment → Except ε (List Segment)}

def Inside (g : Network) (expand : Segment → Except ε (List Segment)) : Prop :=
  ∀ u t, Step expand u t → t ∈ g.segments

theorem byId_of_mem (hids : g.ids.Nodup) {u : Segment} (hu : u ∈ g.segments) :
    g.byId expand u.id = (expand u).map fun ts => ts.map (·.id) := by
  cases h : expand u <;> simp [byId, segment?_of_mem hids hu, h, Except.map]

theorem byId_cases (g : Network) (expand : Segment → Except ε (List Segment)) (id : Int) :
    g.byId expand id = .ok [] ∨
      ∃ u ∈ g.segments, u.id = id ∧ g.byId expand id = (expand u).map fun ts => ts.map (·.id) := by
  cases hu : g.segment? id with
  | none => exact .inl (by simp [byId, hu])
  | some u =>
    refine .inr ⟨u, segment?_mem hu, segment?_id hu, ?_⟩
    cases h : expand u <;> simp [byId, hu, h, Except.map]

theorem step_byId_iff (hids : g.ids.Nodup) {u : Segment} (hu : u ∈ g.segments) (id : Int) :
    Step (g.byId expand) u.id id ↔ ∃ t, Step expand u t ∧ t.id = id := by
  unfold Step
  rw [byId_of_mem hids hu]
  cases expand u with
  | error e => simp [Except.map]
  | ok ts => simp [Except.map]

theorem step_byId_mem (hin : g.Inside expand) {i j : Int} (h : Step (g.byId expand) i j) : j ∈ g.ids := by
  obtain ⟨js, hjs, hj⟩ := h
  rcases byId_cases g expand i with hnone | ⟨u, _, _, hu⟩
  · rw [hnone] at hjs
    cases hjs
    cases hj
  · rw [hu] at hjs
    cases ht : expand u with
    | error e => simp [ht, Except.map] at hjs
    | ok ts =>
      simp only [ht, Except.map, Except.ok.injEq] at hjs
      subst hjs
      obtain ⟨t, htm, rfl⟩ := List.mem_map.mp hj
      exact List.mem_map_of_mem (hin u t ⟨ts, ht, htm⟩)

theorem byId_error {id : Int} {e : ε} (h : g.byId expand id = .error e) :
    ∃ u ∈ g.segments, u.id = id ∧ expand u = .error e := by
  rcases byId_cases g expand id with hnone | ⟨u, hmem, hid, hu⟩
  · simp [hnone] at h
  · rw [hu] at h
    cases ht : expand u with
    | ok ts => simp [ht, Except.map] at h
    | error e' =>
      simp only [ht, Except.map, Except.error.injEq] at h
      exact ⟨u, hmem, hid, h ▸ ht⟩

theorem mem_of_chain (hin : g.Inside expand) {s t : Segment} (hs : s ∈ g.segments)
    (h : ReflTransGen (Step expand) s t) : t ∈ g.segments := by
  cases h with
  | refl => exact hs
  | tail _ h => exact hin _ t h

theorem reflTransGen_byId_iff (hids : g.ids.Nodup) (hin : g.Inside expand) {s : Segment}
    (hs : s ∈ g.segments) (id : Int) :
    ReflTransGen (Step (g.byId expand)) s.id id ↔ ∃ t, ReflTransGen (Step expand) s t ∧ t.id = id := by
  constructor
  · intro h
    induction h with
    | refl => exact ⟨s, .refl, rfl⟩
    | tail _ hstep ih =>
      obtain ⟨u, hu, rfl⟩ := ih
      obtain ⟨t, ht, rfl⟩ := (step_byId_iff hids (mem_of_chain hin hs hu) _).mp hstep
      exact ⟨t, hu.tail ht, rfl⟩
  · intro h
    obtain ⟨t, ht, rfl⟩ := h
    induction ht with
    | refl => exact .refl
    | @tail u t hu hstep ih =>
      exact ih.tail ((step_byId_iff hids (mem_of_chain hin hs hu) t.id).mpr ⟨t, hstep, rfl⟩)

theorem transGen_byId_iff (hids : g.ids.Nodup) (hin : g.Inside expand) {s : Segment}
    (hs : s ∈ g.segments) (id : Int) :
    TransGen (Step (g.byId expand)) s.id id ↔ ∃ t, TransGen (Step expand) s t ∧ t.id = id := by
  constructor
  · intro h
    obtain ⟨i, hi, hstep⟩ := TransGen.tail'_iff.mp h
    obtain ⟨u, hu, rfl⟩ := (reflTransGen_byId_iff hids hin hs i).mp hi
    obtain ⟨t, ht, rfl⟩ := (step_byId_iff hids (mem_of_chain hin hs hu) id).mp hstep
    exact ⟨t, .tail' hu ht, rfl⟩
  · intro h
    obtain ⟨t, ht, rfl⟩ := h
    obtain ⟨u, hu, hstep⟩ := TransGen.tail'_iff.mp ht
    have hi := (reflTransGen_byId_iff hids hin hs u.id).mpr ⟨u, hu, rfl⟩
    exact .tail' hi ((step_byId_iff hids (mem_of_chain hin hs hu) t.id).mpr ⟨t, hstep, rfl⟩)

theorem collectBy_error (hids : g.ids.Nodup) (hin : g.Inside expand) {s : Segment}
    (hs : s ∈ g.segments) {e : ε} (h : g.collectBy expand s = .error e) :
    ∃ u, ReflTransGen (Step expand) s u ∧ expand u = .error e := by
  unfold collectBy at h
  cases hw : walk (g.byId expand) g.ids s.id with
  | ok ids => simp [hw] at h
  | error e' =>
    simp only [hw, Except.error.injEq] at h
    subst h
    obtain ⟨id, hid, he⟩ := walk_error hw
    obtain ⟨u, hu, huid, hue⟩ := byId_error he
    obtain ⟨t, ht, htid⟩ := (reflTransGen_byId_iff hids hin hs id).mp hid
    have htu : t = u := eq_of_id_eq hids (mem_of_chain hin hs ht) hu (htid.trans huid.symm)
    exact ⟨u, htu ▸ ht, hue⟩

theorem collectBy_fails (hids : g.ids.Nodup) (hin : g.Inside expand) {s u : Segment}
    (hs : s ∈ g.segments) (hu : ReflTransGen (Step expand) s u) {e : ε} (he : expand u = .error e) :
    ∃ e', g.collectBy expand s = .error e' := by
  have hid : ReflTransGen (Step (g.byId expand)) s.id u.id :=
    (reflTransGen_byId_iff hids hin hs u.id).mpr ⟨u, hu, rfl⟩
  have hfail : g.byId expand u.id = .error e := by
    rw [byId_of_mem hids (mem_of_chain hin hs hu), he]
    rfl
  obtain ⟨e', hw⟩ := (walk_fails_iff fun _ _ => step_byId_mem hin).mpr ⟨u.id, e, hid, hfail⟩
  exact ⟨e', by simp [collectBy, hw]⟩

theorem collectBy_ok {s : Segment} {out : List Segment} (h : g.collectBy expand s = .ok out) :
    ∃ ids, walk (g.byId expand) g.ids s.id = .ok ids ∧ out = ids.filterMap g.segment? := by
  unfold collectBy at h
  cases hw : walk (g.byId expand) g.ids s.id with
  | error e => simp [hw] at h
  | ok ids =>
    simp only [hw, Except.ok.injEq] at h
    exact ⟨ids, rfl, h.symm⟩

theorem mem_collectBy_iff (hids : g.ids.Nodup) (hin : g.Inside expand) {s : Segment}
    (hs : s ∈ g.segments) {out : List Segment} (h : g.collectBy expand s = .ok out) (t : Segment) :
    t ∈ out ↔ t.id ≠ s.id ∧ TransGen (Step expand) s t := by
  obtain ⟨ids, hw, rfl⟩ := collectBy_ok h
  have hwalk := mem_walk_iff (fun _ _ => step_byId_mem hin) hw
  simp only [List.mem_filterMap, segment?_eq_some_iff hids, hwalk, transGen_byId_iff hids hin hs]
  constructor
  · intro h
    obtain ⟨id, ⟨hne, u, hu, huid⟩, ht, htid⟩ := h
    have hut : u = t :=
      eq_of_id_eq hids (mem_of_chain hin hs hu.to_reflTransGen) ht (huid.trans htid.symm)
    exact ⟨htid ▸ hne, hut ▸ hu⟩
  · intro h
    exact ⟨t.id, ⟨h.1, t, h.2, rfl⟩, mem_of_chain hin hs h.2.to_reflTransGen, rfl⟩

theorem map_id_filterMap_segment? (g : Network) (ids : List Int) :
    (ids.filterMap g.segment?).map (·.id) = ids.filter fun id => (g.segment? id).isSome := by
  induction ids with
  | nil => rfl
  | cons id ids ih =>
    cases hid : g.segment? id with
    | none => simp [hid, ih]
    | some t => simp [hid, ih, segment?_id hid]

theorem nodup_ids_collectBy {s : Segment} {out : List Segment} (h : g.collectBy expand s = .ok out) :
    (out.map (·.id)).Nodup := by
  obtain ⟨ids, hw, rfl⟩ := collectBy_ok h
  rw [map_id_filterMap_segment?]
  exact (walk_nodup hw).filter _

end Search

/-- The segment ends within `limit` of the place where `start` starts. -/
def EndsWithin (start : Segment) (limit : Distance) (u : Segment) : Prop :=
  ∃ origin place, start.start = some origin ∧ u.finish = some place ∧ place.distanceTo origin ≤ limit

/-- A link of a chain from `start`: the first segment ends within `limit`, the second is connected to it
and primary. -/
structure Link (g : Network) (start : Segment) (limit : Distance) (u t : Segment) : Prop where
  near : EndsWithin start limit u
  joined : t ∈ g.connected u
  primary : t.isPrimary = true

def Reaches (g : Network) (start : Segment) (limit : Distance) (t : Segment) : Prop :=
  t.id ≠ start.id ∧ TransGen (g.Link start limit) start t

/-- A search from `start` comes to a segment that it cannot expand. -/
def Blocked (g : Network) (start : Segment) (limit : Distance) : Prop :=
  start.start = none ∨ start.finish = none ∨ ∃ t, g.Reaches start limit t ∧ t.finish = none

section Collect

variable {g : Network} {s : Segment} {limit : Distance}

theorem expandWithin_cases (g : Network) (s : Segment) (limit : Distance) (u : Segment) :
    (s.start = none ∧ g.expandWithin s limit u = .error (.noStart s.id)) ∨
    (u.finish = none ∧ g.expandWithin s limit u = .error (.noEnd u.id)) ∨
    (EndsWithin s limit u ∧
      g.expandWithin s limit u = .ok ((g.connected u).filter Segment.isPrimary)) ∨
    (s.start ≠ none ∧ u.finish ≠ none ∧ ¬ EndsWithin s limit u ∧ g.expandWithin s limit u = .ok []) := by
  unfold expandWithin expandThrough EndsWithin
  cases s.start with
  | none => simp
  | some origin =>
    cases u.finish with
    | none => simp
    | some place => by_cases hle : place.distanceTo origin ≤ limit <;> simp [hle]

theorem expandWithin_error {u : Segment} {fault : DataFault}
    (h : g.expandWithin s limit u = .error fault) :
    (s.start = none ∧ fault = .noStart s.id) ∨ (u.finish = none ∧ fault = .noEnd u.id) := by
  rcases expandWithin_cases g s limit u with ⟨hs, he⟩ | ⟨hu, he⟩ | ⟨_, he⟩ | ⟨_, _, _, he⟩
  · rw [he] at h; cases h; exact .inl ⟨hs, rfl⟩
  · rw [he] at h; cases h; exact .inr ⟨hu, rfl⟩
  · rw [he] at h; cases h
  · rw [he] at h; cases h

theorem expandWithin_fails (g : Network) (limit : Distance) {u : Segment}
    (h : s.start = none ∨ u.finish = none) : ∃ fault, g.expandWithin s limit u = .error fault := by
  rcases expandWithin_cases g s limit u with ⟨_, he⟩ | ⟨_, he⟩ | ⟨hend, _⟩ | ⟨hs, hu, _, _⟩
  · exact ⟨_, he⟩
  · exact ⟨_, he⟩
  · obtain ⟨origin, place, hs, hu, _⟩ := hend
    simp [hs, hu] at h
  · exact absurd h (not_or.mpr ⟨hs, hu⟩)

theorem step_expandWithin : Step (g.expandWithin s limit) = g.Link s limit := by
  funext u t
  apply propext
  constructor
  · intro h
    obtain ⟨ts, hts, ht⟩ := h
    rcases expandWithin_cases g s limit u with ⟨_, he⟩ | ⟨_, he⟩ | ⟨hend, he⟩ | ⟨_, _, _, he⟩
    · rw [he] at hts; cases hts
    · rw [he] at hts; cases hts
    · rw [he] at hts
      cases hts
      obtain ⟨hjoined, hprimary⟩ := List.mem_filter.mp ht
      exact ⟨hend, hjoined, hprimary⟩
    · rw [he] at hts
      cases hts
      cases ht
  · intro h
    obtain ⟨origin, place, hs, hu, hle⟩ := h.near
    refine ⟨(g.connected u).filter Segment.isPrimary, ?_, List.mem_filter.mpr ⟨h.joined, h.primary⟩⟩
    simp [expandWithin, expandThrough, hs, hu, hle]

theorem inside_expandWithin (g : Network) (s : Segment) (limit : Distance) :
    g.Inside (g.expandWithin s limit) := by
  intro u t h
  rw [step_expandWithin] at h
  exact connected_mem h.joined

theorem eq_or_reaches (hids : g.ids.Nodup) (hs : s ∈ g.segments) {u : Segment}
    (h : ReflTransGen (g.Link s limit) s u) : u = s ∨ g.Reaches s limit u := by
  rcases reflTransGen_iff_eq_or_transGen.mp h with hu | hu
  · exact .inl hu
  · by_cases hid : u.id = s.id
    · rw [← step_expandWithin] at h
      exact .inl (eq_of_id_eq hids (mem_of_chain (inside_expandWithin g s limit) hs h) hs hid)
    · exact .inr ⟨hid, hu⟩

theorem collect_error (hids : g.ids.Nodup) (hs : s ∈ g.segments) {fault : DataFault}
    (h : g.collect s limit = .error fault) :
    (s.start = none ∧ fault = .noStart s.id) ∨
      ∃ t, (t = s ∨ g.Reaches s limit t) ∧ t.finish = none ∧ fault = .noEnd t.id := by
  obtain ⟨u, hu, he⟩ := collectBy_error hids (inside_expandWithin g s limit) hs h
  rw [step_expandWithin] at hu
  rcases expandWithin_error he with hstart | ⟨hfinish, hfault⟩
  · exact .inl hstart
  · exact .inr ⟨u, eq_or_reaches hids hs hu, hfinish, hfault⟩

theorem blocked_of_collect_error (hids : g.ids.Nodup) (hs : s ∈ g.segments) {fault : DataFault}
    (h : g.collect s limit = .error fault) : g.Blocked s limit := by
  rcases collect_error hids hs h with ⟨hstart, _⟩ | ⟨t, ht, hfinish, _⟩
  · exact .inl hstart
  · rcases ht with rfl | ht
    · exact .inr (.inl hfinish)
    · exact .inr (.inr ⟨t, ht, hfinish⟩)

theorem collect_fails_of_blocked (hids : g.ids.Nodup) (hs : s ∈ g.segments)
    (h : g.Blocked s limit) : ∃ fault, g.collect s limit = .error fault := by
  have hreach : ∃ u, ReflTransGen (g.Link s limit) s u ∧ (s.start = none ∨ u.finish = none) := by
    rcases h with hstart | hfinish | ⟨t, ht, hfinish⟩
    · exact ⟨s, .refl, .inl hstart⟩
    · exact ⟨s, .refl, .inr hfinish⟩
    · exact ⟨t, ht.2.to_reflTransGen, .inr hfinish⟩
  obtain ⟨u, hu, hmissing⟩ := hreach
  obtain ⟨fault, he⟩ := expandWithin_fails g limit hmissing
  rw [← step_expandWithin] at hu
  exact collectBy_fails hids (inside_expandWithin g s limit) hs hu he

theorem mem_collect_iff (hids : g.ids.Nodup) (hs : s ∈ g.segments) {out : List Segment}
    (h : g.collect s limit = .ok out) (t : Segment) : t ∈ out ↔ g.Reaches s limit t := by
  rw [mem_collectBy_iff hids (inside_expandWithin g s limit) hs h, step_expandWithin]
  rfl

/-- A search fails just if the start has no start or no end, or something in its reach has no end, and it
names such a segment. Otherwise it lists the reach, each segment once. -/
theorem collect_ofArrivals {digits : Int} {arrivals : List Segment}
    (hg : g = ofArrivals digits arrivals) (hs : s ∈ g.segments) (limit : Distance) :
    (g.Blocked s limit →
      ∃ fault, g.collect s limit = .error fault ∧
        ((s.start = none ∧ fault = .noStart s.id) ∨
          ∃ t, (t = s ∨ g.Reaches s limit t) ∧ t.finish = none ∧ fault = .noEnd t.id)) ∧
    (¬ g.Blocked s limit →
      ∃ out, g.collect s limit = .ok out ∧
        (∀ t, t ∈ out ↔ g.Reaches s limit t) ∧ (out.map (·.id)).Nodup) := by
  have hids : g.ids.Nodup := hg ▸ nodup_ids_ofArrivals digits arrivals
  constructor
  · intro hblocked
    obtain ⟨fault, h⟩ := collect_fails_of_blocked hids hs hblocked
    exact ⟨fault, h, collect_error hids hs h⟩
  · intro hfree
    cases h : g.collect s limit with
    | error fault => exact absurd (blocked_of_collect_error hids hs h) hfree
    | ok out => exact ⟨out, rfl, mem_collect_iff hids hs h, nodup_ids_collectBy h⟩

end Collect

end Network

namespace Distance

open Decimal

def greatest : Distance := ⟨1.7976931348623157e308, by decide +kernel⟩

theorem le_greatest (d : Distance) : d ≤ greatest := by
  have hgreatest : greatest.key = 0x7FEFFFFFFFFFFFFF := by decide +kernel
  have hfinite : exponentBits d.meters ≠ specialExponent := by
    have h := d.valid
    simp only [isLength, isFinite, Bool.and_eq_true, decide_eq_true_eq] at h
    exact h.1
  show d.key ≤ greatest.key
  rw [hgreatest]
  unfold exponentBits specialExponent fullSignificand at hfinite
  unfold key magnitudeKey signBit
  omega

end Distance

namespace Network

open Relation

def west : Location := ⟨0, 0, by decide +kernel, by decide +kernel⟩

def east : Location := ⟨0, 0.001, by decide +kernel, by decide +kernel⟩

def outward : Segment := ⟨1, some west, some east, []⟩

def homeward : Segment := ⟨2, some east, some west, []⟩

def roundTrip : Network := ofArrivals 7 [outward, homeward, { homeward with id := -2 }, outward]

theorem segments_roundTrip : roundTrip.segments = [outward, homeward, { homeward with id := -2 }] := rfl

theorem homeward_mem_connected : homeward ∈ roundTrip.connected outward := by
  have hids : (roundTrip.connected outward).map (·.id) = [2, -2] := by decide +kernel
  have hTwo : (2 : Int) ∈ (roundTrip.connected outward).map (·.id) := by simp [hids]
  obtain ⟨t, ht, hid⟩ := List.mem_map.mp hTwo
  have hmem : homeward ∈ roundTrip.segments := by simp [segments_roundTrip]
  exact eq_of_id_eq (nodup_ids_ofArrivals 7 _) (connected_mem ht) hmem hid ▸ ht

theorem roundTrip_reaches_homeward : roundTrip.Reaches outward .greatest homeward := by
  refine ⟨by decide, .single ⟨?_, homeward_mem_connected, by decide⟩⟩
  exact ⟨west, east, rfl, rfl, Distance.le_greatest _⟩

theorem roundTrip_not_blocked : ¬ roundTrip.Blocked outward .greatest := by
  intro hblocked
  rcases hblocked with h | h | ⟨t, ht, h⟩
  · cases h
  · cases h
  · obtain ⟨u, _, hut⟩ := TransGen.tail'_iff.mp ht.2
    have hmem := connected_mem hut.joined
    simp only [segments_roundTrip, List.mem_cons, List.not_mem_nil, or_false] at hmem
    rcases hmem with rfl | rfl | rfl <;> cases h

theorem collect_roundTrip :
    roundTrip = ofArrivals 7 [outward, homeward, { homeward with id := -2 }, outward] ∧
      outward ∈ roundTrip.segments ∧ ¬ roundTrip.Blocked outward .greatest ∧
      ∃ out, roundTrip.collect outward .greatest = .ok out ∧
        ((∀ t, t ∈ out ↔ roundTrip.Reaches outward .greatest t) ∧ (out.map (·.id)).Nodup) ∧
        homeward ∈ out := by
  have hmem : outward ∈ roundTrip.segments := by simp [segments_roundTrip]
  have hexact := collect_ofArrivals (rfl : roundTrip = ofArrivals 7 _) hmem .greatest
  obtain ⟨out, hout, hreach, hnodup⟩ := hexact.2 roundTrip_not_blocked
  exact ⟨rfl, hmem, roundTrip_not_blocked, out, hout, ⟨hreach, hnodup⟩,
    (hreach homeward).mpr roundTrip_reaches_homeward⟩

end Network

end RoadNames
