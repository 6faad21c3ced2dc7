import RoadNames.Proofs.Run.Evaluation
set_option autoImplicit false

namespace RoadNames.Runner

def unrestricted (r : Runner) : Runner := { r with region := none, fraction := 1.0 }

def InRegion (r : Runner) (s : Segment) : Prop :=
  ∀ center radius, r.region = some (center, radius) →
    s.start.any (fun p => center.distanceTo p ≤ radius) = true

inductive Request where
  | starts
  | run

/-- What a runner answers. All else that comes of a run is in the recorder. -/
inductive Answer where
  | starts (starts : List Segment)
  | run (summary : Summary) (events : List Log.Event)

/-- Requests one after the other, each to the runner and the recorder that the one before has left. -/
def answers (r : Runner) (recorder : Recorder) : List Request → Except RunError (List Answer × Recorder)
  | [] => .ok ([], recorder)
  | .starts :: requests =>
    match r.startSegments with
    | .error e => .error (.sample e)
    | .ok (starts, r) =>
      (r.answers recorder requests).map fun later => (.starts starts :: later.1, later.2)
  | .run :: requests =>
    match r.run recorder with
    | .error e => .error e
    | .ok (report, r) =>
      (r.answers report.recorder requests).map fun later =>
        (.run report.summary report.events :: later.1, later.2)

def steadyAnswer (starts : List Segment) (report : Report) : Request → Answer
  | .starts => .starts starts
  | .run => .run report.summary report.events

def handedIn (payloads : List Json) : Request → List Json
  | .starts => []
  | .run => payloads

variable {r drawn : Runner} {starts : List Segment}

theorem answers_eq (hg : r.network.Built) (hfresh : r.starts = none)
    (hstarts : r.startSegments = .ok (starts, drawn)) {before recorder : Recorder} (hrec : recorder.Contained)
    {asked : Runner} (hasked : asked = r ∨ asked = drawn) (requests : List Request) :
    asked.answers recorder requests =
      .ok (requests.map (steadyAnswer starts (r.reportAfter (r.opening starts before) starts 0)),
        recorder.emitAll (requests.flatMap (handedIn (starts.filterMap r.payload?)))) := by
  induction requests generalizing asked recorder with
  | nil => rfl
  | cons request requests ih =>
    have hdrawn : drawn = r ∨ drawn = drawn := .inr rfl
    have hlater := ih hrec hdrawn
    cases request with
    | starts =>
      have hanswer : asked.startSegments = .ok (starts, drawn) := by
        rcases hasked with rfl | rfl
        · exact hstarts
        · exact startSegments_drawn hfresh hstarts
      simp [answers, hanswer, hlater, Except.map, steadyAnswer, handedIn]
    | run =>
      have hrun : asked.run recorder = .ok (r.reportAfter (r.opening starts recorder) starts 0, drawn) := by
        have hruns := run_of_withstands hg hfresh hstarts (hrec.withstands _)
        rcases hasked with rfl | rfl
        · exact hruns.1
        · exact hruns.2
      have hafter := ih (hrec.of_emitAll (starts.filterMap r.payload?)) hdrawn
      simp only [answers, hrun]
      rw [reportAfter, opening]
      simp [hafter, Except.map, steadyAnswer, handedIn, reportAfter, opening, Recorder.emitAll_append]

theorem mem_candidates_iff (hg : r.network.Sound) (s : Segment) :
    s ∈ r.candidates.1 ↔ s ∈ r.network.segments ∧ r.InRegion s :=
  mem_candidates hg s

theorem inRegion_of_mem_starts (hg : r.network.Sound) (hfresh : r.starts = none)
    (hstarts : r.startSegments = .ok (starts, drawn)) {s : Segment} (hs : s ∈ starts) : r.InRegion s :=
  ((mem_candidates_iff hg s).mp (mem_candidates_of_mem_starts hg hfresh hstarts hs).1).2

theorem eq_filter_of_sublist {part all : List Segment} (hsub : part.Sublist all)
    (hall : (all.map (·.id)).Pairwise (· < ·)) :
    part = all.filter fun s => decide (s.id ∈ part.map (·.id)) := by
  have hnodup : (all.map (·.id)).Nodup := hall.imp ne_of_lt
  refine eq_of_pairwise_lt (·.id) (hall.sublist (hsub.map _))
    (hall.sublist (List.filter_sublist.map _)) fun s => ?_
  rw [List.mem_filter, decide_eq_true_iff]
  refine ⟨fun hs => ⟨hsub.subset hs, List.mem_map_of_mem hs⟩, fun ⟨hs, hid⟩ => ?_⟩
  obtain ⟨t, ht, htid⟩ := List.mem_map.mp hid
  rwa [← List.inj_on_of_nodup_map hnodup (hsub.subset ht) hs htid]

theorem failedIds_of_sublist {part all : List Segment} (hsub : part.Sublist all)
    (hall : (all.map (·.id)).Pairwise (· < ·)) :
    r.failedIds part = (r.failedIds all).filter fun id => decide (id ∈ part.map (·.id)) := by
  conv_lhs => rw [eq_filter_of_sublist hsub hall]
  simp only [failedIds, List.filter_map, List.filter_filter, Function.comp_def, Bool.and_comm]

/-- Some starts of all that there are, and two reports that say the same of each of them. -/
structure Selects (r : Runner) (recorder : Recorder) (starts all : List Segment) (report whole : Report) :
    Prop where
  sublist : starts.Sublist all
  ordered : (all.map (·.id)).Pairwise (· < ·)
  inRegion : ∀ s ∈ starts, r.InRegion s
  nonempty : (∃ s ∈ r.network.segments, Check.validStart s = true ∧ r.InRegion s) → starts ≠ []
  recorded : report.recorder = recorder.emitAll (starts.filterMap r.payload?)
  recordedWhole : whole.recorder = recorder.emitAll (all.filterMap r.payload?)
  failed : report.summary.failedIds =
    whole.summary.failedIds.filter fun id => decide (id ∈ starts.map (·.id))

/-- A restricted run is the part of an unrestricted run that is about its starts, and all requests to a
runner, in whatever order, are about the same starts. The number of segments has to be within the doubles, or
there would be no fraction of it. -/
theorem restriction_selects_starts {recorder : Recorder} (hg : r.network.Built) (hfresh : r.starts = none)
    (hpos : 0 < r.fraction) (hcount : r.network.segments.length < 2 ^ 1023) (hrec : recorder.Contained) :
    ∃ starts drawn report all allDrawn whole,
      r.startSegments = .ok (starts, drawn) ∧ r.run recorder = .ok (report, drawn) ∧
      r.unrestricted.startSegments = .ok (all, allDrawn) ∧
      r.unrestricted.run recorder = .ok (whole, allDrawn) ∧
      r.Selects recorder starts all report whole ∧
      ∀ requests, r.answers recorder requests =
        .ok (requests.map (steadyAnswer starts report),
          recorder.emitAll (requests.flatMap (handedIn (starts.filterMap r.payload?)))) := by
  obtain ⟨starts, drawn, hstarts, hsome⟩ := startSegments_of_pos hg.sound hfresh hpos hcount
  have hfull : (1.0 : Float) ≥ 1.0 := by decide +kernel
  obtain ⟨allDrawn, hall⟩ := startSegments_of_full (r := r.unrestricted) hfresh hfull
  have hrun := (run_of_withstands hg hfresh hstarts (hrec.withstands _)).1
  have hwhole := (run_of_withstands (r := r.unrestricted) hg hfresh hall (hrec.withstands _)).1
  have hordered := pairwise_starts (r := r.unrestricted) hg.sound hfresh hall
  have hsub := starts_sublist hg.sound hfresh hstarts
  refine ⟨starts, drawn, _, _, allDrawn, _, hstarts, hrun, hall, hwhole, ?_,
    answers_eq hg hfresh hstarts hrec (.inl rfl)⟩
  exact {
    sublist := hsub
    ordered := hordered
    inRegion := fun s hs => inRegion_of_mem_starts hg.sound hfresh hstarts hs
    nonempty := fun ⟨s, hs, hvalid, hregion⟩ =>
      hsome ⟨s, (mem_candidates_iff hg.sound s).mpr ⟨hs, hregion⟩, hvalid⟩
    recorded := rfl
    recordedWhole := rfl
    failed := failedIds_of_sublist hsub hordered }

open Check Network

def halfPlaced : Runner := { partlyPlaced with region := some (west, .greatest), fraction := 0.5 }

theorem halfPlaced_selects_starts :
    ∃ starts drawn report all allDrawn whole, halfPlaced.network.Built ∧ halfPlaced.starts = none ∧
      0 < halfPlaced.fraction ∧ halfPlaced.network.segments.length < 2 ^ 1023 ∧
      (Recorder.ofSinks [.memory]).Contained ∧
      halfPlaced.startSegments = .ok (starts, drawn) ∧
      halfPlaced.run (.ofSinks [.memory]) = .ok (report, drawn) ∧
      halfPlaced.unrestricted.startSegments = .ok (all, allDrawn) ∧
      halfPlaced.unrestricted.run (.ofSinks [.memory]) = .ok (whole, allDrawn) ∧
      halfPlaced.Selects (.ofSinks [.memory]) starts all report whole ∧
      starts ≠ [] ∧ unplaced ∉ starts ∧
      halfPlaced.answers (.ofSinks [.memory]) [.starts, .run, .starts] =
        .ok ([.starts starts, .run report.summary report.events, .starts starts],
          (Recorder.ofSinks [.memory]).emitAll (starts.filterMap halfPlaced.payload?)) := by
  have hbuilt : halfPlaced.network.Built := built_ofArrivals 7 _
  have hpos : 0 < halfPlaced.fraction := by decide +kernel
  have hcount : halfPlaced.network.segments.length < 2 ^ 1023 := by
    have hlength : halfPlaced.network.segments.length = 3 := rfl
    omega
  have hrec : (Recorder.ofSinks [.memory]).Contained := by
    intro s hs n _ fault hfault
    obtain rfl : s = .memory := by simpa [Recorder.ofSinks] using hs
    cases hfault
  obtain ⟨starts, drawn, report, all, allDrawn, whole, hstarts, hrun, hall, hwhole, hselects, hanswers⟩ :=
    restriction_selects_starts hbuilt rfl hpos hcount hrec
  refine ⟨starts, drawn, report, all, allDrawn, whole, hbuilt, rfl, hpos, hcount, hrec, hstarts, hrun, hall,
    hwhole, hselects, hselects.nonempty ⟨maimStreet, ?_, by decide +kernel, ?_⟩, fun hmem => ?_, ?_⟩
  · exact List.mem_cons_self
  · rintro center radius hregion
    obtain ⟨rfl, rfl⟩ := Prod.ext_iff.mp (Option.some.inj hregion)
    exact decide_eq_true (Distance.le_greatest _)
  · have hplace := hselects.inRegion unplaced hmem west .greatest rfl
    cases hplace
  · simpa [steadyAnswer, handedIn] using hanswers [.starts, .run, .starts]

end RoadNames.Runner
