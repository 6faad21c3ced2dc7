import RoadNames.Proofs.Network.Reach
set_option autoImplicit false

namespace RoadNames.Network

/-- The arrivals that are taken: the first of each number, in order. -/
def accepted (arrivals : List Segment) : List Segment := arrivals.eraseDupsBy fun s t => s.id == t.id

theorem accepted_cons (s : Segment) (later : List Segment) :
    accepted (s :: later) = s :: accepted (later.filter fun t => t.id ≠ s.id) := by
  simp [accepted, List.eraseDupsBy_cons]

@[simp] theorem digits_arrive (g : Network) (s : Segment) : (g.arrive s).digits = g.digits := by
  unfold arrive
  rcases add_cases g s with ⟨_, he⟩ | ⟨_, he⟩ <;> rw [he]

theorem digits_foldl_arrive (arrivals : List Segment) (g : Network) :
    (arrivals.foldl arrive g).digits = g.digits := by
  induction arrivals generalizing g with
  | nil => rfl
  | cons s arrivals ih => rw [List.foldl_cons, ih, digits_arrive]

theorem segments_foldl_arrive (arrivals : List Segment) (g : Network) :
    (arrivals.foldl arrive g).segments =
      g.segments ++ accepted (arrivals.filter fun s => s.id ∉ g.ids) := by
  induction arrivals generalizing g with
  | nil => simp [accepted]
  | cons s arrivals ih =>
    rw [List.foldl_cons, ih]
    by_cases hs : s.id ∈ g.ids
    · simp [arrive_of_mem hs, hs]
    · have hsegments := segments_arrive_of_not_mem hs
      have hids := ids_arrive_of_not_mem hs
      have hfilter : (arrivals.filter fun t => t.id ∉ (g.arrive s).ids) =
          (arrivals.filter fun t => t.id ∉ g.ids).filter fun t => t.id ≠ s.id := by
        rw [List.filter_filter]
        refine List.filter_congr fun t _ => ?_
        simp [hids, not_or, and_comm]
      have hfirst : ((s :: arrivals).filter fun t => t.id ∉ g.ids) =
          s :: arrivals.filter fun t => t.id ∉ g.ids := List.filter_cons_of_pos (by simpa using hs)
      rw [hsegments, hfilter, hfirst, accepted_cons, List.append_assoc, List.singleton_append]

theorem segments_ofArrivals (digits : Int) (arrivals : List Segment) :
    (ofArrivals digits arrivals).segments = accepted arrivals := by
  have h := segments_foldl_arrive arrivals (empty digits)
  simpa [ofArrivals, empty, ids] using h

theorem mem_ids_foldl_arrive (arrivals : List Segment) (g : Network) (id : Int) :
    id ∈ (arrivals.foldl arrive g).ids ↔ id ∈ g.ids ∨ ∃ s ∈ arrivals, s.id = id := by
  induction arrivals generalizing g with
  | nil => simp
  | cons s arrivals ih =>
    have hstep : id ∈ (g.arrive s).ids ↔ id ∈ g.ids ∨ s.id = id := by
      by_cases hs : s.id ∈ g.ids
      · rw [arrive_of_mem hs]
        exact ⟨.inl, fun h => h.elim (fun h => h) fun h => h ▸ hs⟩
      · simp [ids, segments_arrive_of_not_mem hs, eq_comm]
    rw [List.foldl_cons, ih, hstep]
    simp [or_assoc]

theorem add_refused_iff (digits : Int) (before : List Segment) (s : Segment) :
    (∃ e, (ofArrivals digits before).add s = .error e) ↔ ∃ r ∈ before, r.id = s.id := by
  have hids := mem_ids_foldl_arrive before (empty digits) s.id
  have hempty : s.id ∉ (empty digits).ids := by simp [empty, ids]
  rw [or_iff_right hempty] at hids
  rw [← hids]
  rcases add_cases (ofArrivals digits before) s with ⟨hmem, he⟩ | ⟨hnew, he⟩
  · exact iff_of_true ⟨_, he⟩ hmem
  · refine iff_of_false (fun h => ?_) hnew
    obtain ⟨e, h⟩ := h
    rw [he] at h
    cases h

theorem ofArrivals_of_refused {digits : Int} {before after : List Segment} {s : Segment} {e : AddError}
    (h : (ofArrivals digits before).add s = .error e) :
    ofArrivals digits (before ++ s :: after) = ofArrivals digits (before ++ after) := by
  have hkept : (ofArrivals digits before).arrive s = ofArrivals digits before := by simp [arrive, h]
  unfold ofArrivals at hkept ⊢
  rw [List.foldl_append, List.foldl_cons, hkept, ← List.foldl_append]

theorem nodup_connected {g : Network} (s : Segment) : (g.connected s).Nodup := by
  refine List.Nodup.of_map (·.id) ?_
  unfold connected
  rw [map_id_filterMap_segment?]
  exact (Names.nodup_eraseDups _).filter _

/-- A network holds just the accepted arrivals, in order; one that is refused leaves no trace; and the
neighbours of a segment are the others that share a node with it, each once. -/
theorem connected_ofArrivals {digits : Int} {arrivals : List Segment} {g : Network}
    (hg : g = ofArrivals digits arrivals) :
    g.segments = accepted arrivals ∧
    (∀ before s after, arrivals = before ++ s :: after →
      ((∃ e, (ofArrivals digits before).add s = .error e) ↔ ∃ r ∈ before, r.id = s.id) ∧
      ((∃ e, (ofArrivals digits before).add s = .error e) → g = ofArrivals digits (before ++ after))) ∧
    ∀ s ∈ g.segments,
      (∀ t, t ∈ g.connected s ↔ t ∈ g.segments ∧ t.id ≠ s.id ∧ s.Meets digits t) ∧
      (g.connected s).Nodup ∧ ∀ t ∈ g.segments, (t ∈ g.connected s ↔ s ∈ g.connected t) := by
  have hsound : g.Sound := hg ▸ (built_ofArrivals digits arrivals).sound
  have hdigits : g.digits = digits := hg ▸ digits_foldl_arrive arrivals (empty digits)
  refine ⟨hg ▸ segments_ofArrivals digits arrivals, fun before s after harrivals => ?_, fun s hs => ?_⟩
  · refine ⟨add_refused_iff digits before s, fun hrefused => ?_⟩
    obtain ⟨e, he⟩ := hrefused
    rw [hg, harrivals, ofArrivals_of_refused he]
  · have hmem : ∀ s t, t ∈ g.connected s ↔ t ∈ g.segments ∧ t.id ≠ s.id ∧ s.Meets digits t :=
      fun s t => hdigits ▸ mem_connected_iff hsound s t
    refine ⟨hmem s, nodup_connected s, fun t ht => ?_⟩
    rw [hmem, hmem]
    exact ⟨fun h => ⟨hs, h.2.1.symm, h.2.2.symm⟩, fun h => ⟨ht, h.2.1.symm, h.2.2.symm⟩⟩

/-- A tenth of a millimeter to the east of `west`. -/
def besideWest : Location := ⟨0, 1e-9, by decide +kernel, by decide +kernel⟩

def roundabout : Segment := ⟨1, some west, some west, []⟩

def spur : Segment := ⟨2, some besideWest, none, []⟩

def lost : Segment := ⟨3, none, none, []⟩

def junction : Network := ofArrivals 7 [roundabout, spur, { lost with id := 2 }, lost]

theorem roundabout_meets_spur : roundabout.Meets 7 spur :=
  ⟨west, besideWest, .inl rfl, .inl rfl, by decide +kernel⟩

theorem connected_junction :
    junction = ofArrivals 7 [roundabout, spur, { lost with id := 2 }, lost] ∧
      (∃ e, (ofArrivals 7 [roundabout, spur]).add { lost with id := 2 } = .error e) ∧
      junction = ofArrivals 7 [roundabout, spur, lost] ∧
      roundabout ∈ junction.segments ∧ spur ∈ junction.segments ∧
      spur ∈ junction.connected roundabout ∧ roundabout ∈ junction.connected spur ∧
      lost ∉ junction.connected roundabout := by
  obtain ⟨hsegments, hrefused, hconnected⟩ := connected_ofArrivals (rfl : junction = ofArrivals 7 _)
  have htaken := hrefused [roundabout, spur] { lost with id := 2 } [lost] rfl
  have hrefusal := htaken.1.mpr ⟨spur, by simp, rfl⟩
  have hall : junction.segments = [roundabout, spur, lost] := hsegments.trans rfl
  have hloop : roundabout ∈ junction.segments := by simp [hall]
  have hspur : spur ∈ junction.segments := by simp [hall]
  obtain ⟨hmem, _, hmutual⟩ := hconnected roundabout hloop
  have hjoined := (hmem spur).mpr ⟨hspur, by decide, roundabout_meets_spur⟩
  refine ⟨rfl, hrefusal, htaken.2 hrefusal, hloop, hspur, hjoined, (hmutual spur hspur).mp hjoined, ?_⟩
  intro h
  obtain ⟨p, q, _, hq, _⟩ := ((hmem lost).mp h).2.2
  rcases hq with hq | hq <;> cases hq

inductive Request where
  | add (s : Segment)
  | near (center : Location) (radius : Distance)

inductive Response where
  | added
  | refused (error : AddError)
  | found (segments : List Segment)

def Request.arrival? : Request → Option Segment
  | .add s => some s
  | .near _ _ => none

def respond (g : Network) : Request → Response × Network
  | .add s =>
    match g.add s with
    | .ok h => (.added, h)
    | .error e => (.refused e, g)
  | .near center radius => (.found (g.near center radius).1, (g.near center radius).2)

def responses (g : Network) : List Request → List Response
  | [] => []
  | request :: later => (g.respond request).1 :: (g.respond request).2.responses later

def after (g : Network) (requests : List Request) : Network :=
  requests.foldl (fun g request => (g.respond request).2) g

/-- The segments that are there after some requests: of each number the one that was added first. -/
def present (requests : List Request) : List Segment := accepted (requests.filterMap Request.arrival?)

/-- The response to a request where some segments are present, by a look at each of them. -/
def plainResponse (present : List Segment) : Request → Response
  | .add s => if s.id ∈ present.map (·.id) then .refused (.duplicateId s.id) else .added
  | .near center radius => .found (present.filter fun s => s.start.any fun p => center.distanceTo p ≤ radius)

theorem respond_add_network (g : Network) (s : Segment) : (g.respond (.add s)).2 = g.arrive s := by
  rcases add_cases g s with ⟨_, he⟩ | ⟨_, he⟩ <;> simp [respond, arrive, he]

theorem Built.respond {g : Network} (hg : g.Built) (request : Request) : (g.respond request).2.Built := by
  cases request with
  | add s =>
    rw [respond_add_network]
    exact hg.arrive s
  | near center radius => exact hg.near center radius

theorem respond_eq_plain {g : Network} (hg : g.Sound) (request : Request) :
    (g.respond request).1 = plainResponse g.segments request := by
  cases request with
  | add s =>
    rcases add_cases g s with ⟨hmem, he⟩ | ⟨hnew, he⟩
    · simp [respond, plainResponse, he, show s.id ∈ g.segments.map (·.id) from hmem]
    · simp [respond, plainResponse, he, show s.id ∉ g.segments.map (·.id) from hnew]
  | near center radius => exact congrArg Response.found (near_eq_filter hg center radius)

theorem Built.after {g : Network} (hg : g.Built) (requests : List Request) : (g.after requests).Built := by
  induction requests generalizing g with
  | nil => exact hg
  | cons request later ih => exact ih (hg.respond request)

theorem segments_after (g : Network) (requests : List Request) :
    (g.after requests).segments = ((requests.filterMap Request.arrival?).foldl arrive g).segments := by
  induction requests generalizing g with
  | nil => rfl
  | cons request later ih =>
    have hlater : (g.after (request :: later)).segments =
        ((later.filterMap Request.arrival?).foldl arrive (g.respond request).2).segments := ih _
    rw [hlater]
    cases request with
    | add s =>
      rw [respond_add_network]
      rfl
    | near center radius =>
      rw [segments_foldl_arrive]
      exact (segments_foldl_arrive _ g).symm

theorem segments_after_empty (digits : Int) (requests : List Request) :
    ((empty digits).after requests).segments = present requests := by
  rw [segments_after]
  exact segments_ofArrivals digits _

@[simp] theorem length_responses (g : Network) (requests : List Request) :
    (g.responses requests).length = requests.length := by
  induction requests generalizing g with
  | nil => rfl
  | cons request later ih => simp [responses, ih]

theorem responses_append (g : Network) (earlier later : List Request) :
    g.responses (earlier ++ later) = g.responses earlier ++ (g.after earlier).responses later := by
  induction earlier generalizing g with
  | nil => rfl
  | cons request earlier ih => exact congrArg (_ :: ·) (ih _)

/-- Whatever is asked for before and after it, a request is answered as a plain list of the segments that are
there would answer it. -/
theorem responses_eq_plain (digits : Int) (earlier : List Request) (request : Request) (later : List Request) :
    ((empty digits).responses (earlier ++ request :: later))[earlier.length]? =
      some (plainResponse (present earlier) request) := by
  have hsound := ((Built.empty digits).after earlier).sound
  rw [responses_append, List.getElem?_append_right (by simp), length_responses, Nat.sub_self, responses,
    List.getElem?_cons_zero, respond_eq_plain hsound, segments_after_empty]

/-- Segments near a place are those of the segments in the network at that moment that start there, in the order
in which they were added and each once, wherever the question comes among additions, refused or not, and other
questions. -/
theorem near_never_stale (digits : Int) (earlier later : List Request) (center : Location)
    (radius : Distance) :
    ∃ found, ((empty digits).responses (earlier ++ .near center radius :: later))[earlier.length]? =
        some (.found found) ∧
      found = (present earlier).filter (fun s => s.start.any fun p => center.distanceTo p ≤ radius) ∧
      (found.map (·.id)).Nodup ∧
      ((empty digits).after earlier).segments = present earlier := by
  have hnumbered := ((Built.empty digits).after earlier).sound.numbered
  rw [ids, segments_after_empty] at hnumbered
  refine ⟨_, responses_eq_plain digits earlier (.near center radius) later, rfl, ?_,
    segments_after_empty digits earlier⟩
  exact hnumbered.sublist (List.filter_sublist.map _)

end RoadNames.Network
