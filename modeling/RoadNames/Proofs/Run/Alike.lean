import RoadNames.Proofs.Check.Agreement
import RoadNames.Proofs.Run.Evaluation
set_option autoImplicit false

/-!
Runs that come out alike. What a run finds depends on the grid and the primary segments of its network
and on nothing else: not on segments of the other direction, not on the order in which the data came,
and not on the order in which a search goes through neighbours.
-/

namespace RoadNames

def Log.Event.unworded : Log.Event → Log.Event
  | .failure id _ kind extra => .failure id "" kind extra
  | event => event

/-- The report without the words of failures. The summary and what is recorded stay as they are. -/
def Report.unworded (r : Report) : Report := { r with events := r.events.map (·.unworded) }

theorem Report.unworded_eq_iff {a b : Report} : a.unworded = b.unworded ↔
    a.summary = b.summary ∧ a.events.map (·.unworded) = b.events.map (·.unworded) ∧
      a.recorder = b.recorder := by
  simp [unworded]

namespace Runner

open Network

theorem unworded_failureEvent (s : Segment) (fault : DataFault) (position : Nat) :
    (failureEvent s fault position).unworded =
      .failure (.int s.id) "" "GraphDataError" [("seq", .int position)] := rfl

section Steps

variable (r : Runner) {search other : Search}

theorem step_unworded {s : Segment} (position : Nat) {before after : Report}
    (hflag : (r.check.flagBy search s).toOption = (r.check.flagBy other s).toOption)
    (hbefore : before.unworded = after.unworded) :
    (r.step search position s before).map Report.unworded =
      (r.step other position s after).map Report.unworded := by
  obtain ⟨hsummary, hevents, hrecorder⟩ := Report.unworded_eq_iff.mp hbefore
  cases hs : r.check.flagBy search s with
  | error fault =>
    cases ho : r.check.flagBy other s with
    | ok answer => simp [hs, ho, Except.toOption] at hflag
    | error fault' =>
      simp [step, hs, ho, Except.map, Report.unworded, hsummary, hevents, hrecorder,
        unworded_failureEvent]
  | ok answer =>
    cases ho : r.check.flagBy other s with
    | error fault => simp [hs, ho, Except.toOption] at hflag
    | ok answer' =>
      obtain rfl : answer = answer' := by simpa [hs, ho, Except.toOption] using hflag
      cases answer with
      | none => simp [step, hs, ho, Except.map, Report.unworded, hsummary, hevents, hrecorder]
      | some f =>
        cases hpayload : r.payloadOf f with
        | error e => simp [step, hs, ho, hpayload, Except.map]
        | ok payload =>
          rcases hemit : after.recorder.emit payload with ⟨_ | fault, recorder⟩ <;>
            simp [step, hs, ho, hpayload, hrecorder, hemit, Except.map, Report.unworded, hsummary,
              hevents]

theorem steps_unworded {starts : List Segment} (position : Nat) {before after : Report}
    (hflag : ∀ s ∈ starts, (r.check.flagBy search s).toOption = (r.check.flagBy other s).toOption)
    (hbefore : before.unworded = after.unworded) :
    (r.steps search position starts before).map Report.unworded =
      (r.steps other position starts after).map Report.unworded := by
  induction starts generalizing position before after with
  | nil => simp [steps, Except.map, hbefore]
  | cons s rest ih =>
    have hstep := r.step_unworded position (hflag s (by simp)) hbefore
    have hrest := fun t ht => hflag t (List.mem_cons_of_mem s ht)
    simp only [steps]
    cases hs : r.step search position s before with
    | error e =>
      cases ho : r.step other position s after with
      | error e' => simpa [hs, ho, Except.map] using hstep
      | ok report => simp [hs, ho, Except.map] at hstep
    | ok report =>
      cases ho : r.step other position s after with
      | error e => simp [hs, ho, Except.map] at hstep
      | ok report' => exact ih (position + 1) hrest (by simpa [hs, ho, Except.map] using hstep)

end Steps

def withNetwork (r : Runner) (g : Network) : Runner := { r with network := g, starts := none }

def runIn (r : Runner) (e : Enumeration) (recorder : Recorder) : Except RunError (Report × Runner) :=
  r.runBy (e.search r.network) recorder

theorem runIn_indexed (r : Runner) (recorder : Recorder) :
    r.runIn .indexed recorder = r.run recorder := by
  rw [runIn, Enumeration.search_indexed, run]

theorem runBy_unworded {r : Runner} (hfresh : r.starts = none) (search : Search)
    (recorder : Recorder) :
    (r.runBy search recorder).map (·.1.unworded) =
      match r.startSegments.map (·.1) with
      | .error e => .error (.sample e)
      | .ok starts =>
        (r.steps search 0 starts (r.opening starts recorder)).map Report.unworded := by
  cases hstarts : r.startSegments with
  | error e => simp [runBy, hstarts, Except.map]
  | ok drawing =>
    obtain ⟨starts, drawn⟩ := drawing
    rw [(runBy_eq hfresh hstarts search recorder).1]
    simp only [Except.map]
    cases r.steps search 0 starts (r.opening starts recorder) <;> rfl

section Networks

variable (r : Runner) {g h : Network} (same : g.SamePrimary h) (hg : g.Sound) (hh : h.Sound)
include same hg hh

theorem startIds_withNetwork :
    startIds (r.withNetwork g).candidates.1 = startIds (r.withNetwork h).candidates.1 := by
  have hordered : ∀ {n : Network}, n.Sound →
      (startIds (r.withNetwork n).candidates.1).Pairwise (· < ·) := fun {n} hn =>
    pairwise_startIds (hn.numbered.sublist ((candidates_sublist (r := r.withNetwork n) hn).map _))
  refine eq_of_pairwise_lt id (by simpa using hordered hg) (by simpa using hordered hh) fun id => ?_
  simp only [mem_startIds, mem_candidates (r := r.withNetwork g) hg,
    mem_candidates (r := r.withNetwork h) hh, and_assoc]
  exact exists_congr fun t => and_congr_left fun ⟨_, hvalid, _⟩ =>
    same.mem_iff_of_validStart hvalid

theorem startSegments_withNetwork :
    (r.withNetwork g).startSegments.map (·.1) = (r.withNetwork h).startSegments.map (·.1) := by
  rw [startSegments_eq rfl, startSegments_eq rfl, startIds_withNetwork r same hg hh]
  show (Random.sample _ r.fraction r.generator).map _ = (Random.sample _ r.fraction r.generator).map _
  cases hsample : Random.sample (startIds (r.withNetwork h).candidates.1) r.fraction r.generator with
  | error e => rfl
  | ok drawing =>
    have hlookup : ∀ id ∈ drawing.1, g.segment? id = h.segment? id := by
      intro id hid
      obtain ⟨t, ht, hvalid, rfl⟩ := mem_startIds.mp ((Random.sampled_of_sample hsample).sublist.subset hid)
      have hth : t ∈ h.segments := (candidates_sublist (r := r.withNetwork h) hh).subset ht
      have htg := (same.mem_iff_of_validStart hvalid).mpr hth
      rw [segment?_of_mem hg.numbered htg, segment?_of_mem hh.numbered hth]
    exact congrArg Except.ok (List.filterMap_congr hlookup)

theorem flagBy_toOption_withNetwork (e e' : Enumeration) {t : Segment} (htg : t ∈ g.segments)
    (hth : t ∈ h.segments) :
    (r.check.flagBy (e.search g) t).toOption = (r.check.flagBy (e'.search h) t).toOption :=
  Check.flagBy_toOption_congr r.check (e.search_exact hg.numbered htg _)
    (e'.search_exact hh.numbered hth _) (same.reaches_iff hg hh t r.check.limit)

/-- Runs over networks with the same primary segments differ at most in the words of failures. -/
theorem runIn_unworded (e e' : Enumeration) (recorder : Recorder) :
    ((r.withNetwork g).runIn e recorder).map (·.1.unworded) =
      ((r.withNetwork h).runIn e' recorder).map (·.1.unworded) := by
  have hdrawn := startSegments_withNetwork r same hg hh
  unfold runIn
  rw [runBy_unworded rfl, runBy_unworded rfl, hdrawn]
  cases hsh : (r.withNetwork h).startSegments with
  | error error => rfl
  | ok drawing =>
    obtain ⟨starts, drawn⟩ := drawing
    have hflags : ∀ s ∈ starts, (r.check.flagBy (e.search g) s).toOption =
        (r.check.flagBy (e'.search h) s).toOption := by
      intro s hs
      obtain ⟨hmem, hvalid⟩ := mem_starts (r := r.withNetwork h) hh rfl hsh hs
      have hsg := (same.mem_iff_of_validStart hvalid).mpr hmem
      exact r.flagBy_toOption_withNetwork same hg hh e e' hsg hmem
    have hsteps := r.steps_unworded 0 hflags (rfl : (r.opening starts recorder).unworded = _)
    -- a step sees its network through its search only
    have hover : ∀ (n : Network) (search : Search), (r.withNetwork n).steps search 0 starts
        (r.opening starts recorder) = r.steps search 0 starts (r.opening starts recorder) :=
      fun n search => steps_eq_of_same (q := r.withNetwork n) (r := r) rfl rfl rfl search 0 starts _
    exact (congrArg _ (hover g _)).trans (hsteps.trans (congrArg _ (hover h _).symm))

end Networks

/-- Segments with numbers below one change nothing, wherever they lie and whatever they lack: without
them the same starts are checked, fail and get flags, and the same is recorded. -/
theorem run_primaryPart {g : Network} (hg : g.Built) (r : Runner) (recorder : Recorder) :
    ((r.withNetwork g).run recorder).map (·.1.unworded) =
      ((r.withNetwork g.primaryPart).run recorder).map (·.1.unworded) := by
  rw [← runIn_indexed, ← runIn_indexed]
  have hpart : g.primaryPart.Sound := (built_ofArrivals _ _).sound
  exact r.runIn_unworded (samePrimary_primaryPart hg.sound) hg.sound hpart .indexed .indexed recorder

def twoWay : Network :=
  .ofArrivals 7 [Check.maimStreet, { Check.mainStreet with id := -2 }, Check.mainStreet,
    { unplaced with id := -3 }]

theorem run_twoWay :
    twoWay.Built ∧ { unplaced with id := -3 } ∈ twoWay.segments ∧
      twoWay.primaryPart.segments = [Check.maimStreet, Check.mainStreet] ∧
      ((partlyPlaced.withNetwork twoWay).run (.ofSinks [.memory])).map (·.1.unworded) =
        ((partlyPlaced.withNetwork twoWay.primaryPart).run (.ofSinks [.memory])).map (·.1.unworded) := by
  have hbuilt : twoWay.Built := built_ofArrivals 7 _
  have hsegments : twoWay.segments = [Check.maimStreet, { Check.mainStreet with id := -2 },
    Check.mainStreet, { unplaced with id := -3 }] := rfl
  refine ⟨hbuilt, by simp [hsegments], ?_,
    run_primaryPart hbuilt partlyPlaced (.ofSinks [.memory])⟩
  rw [segments_primaryPart hbuilt.sound, hsegments]
  rfl

/-- Neither the order in which the segments came nor the order in which searches go through neighbours
changes what is checked, flagged and recorded, or which starts fail. -/
theorem runIn_of_perm {digits : Int} {arrivals others : List Segment} (hperm : arrivals.Perm others)
    (hids : (arrivals.map (·.id)).Nodup) (r : Runner) (e e' : Enumeration) (recorder : Recorder) :
    ((r.withNetwork (.ofArrivals digits arrivals)).runIn e recorder).map (·.1.unworded) =
      ((r.withNetwork (.ofArrivals digits others)).runIn e' recorder).map (·.1.unworded) :=
  r.runIn_unworded (samePrimary_of_perm digits hperm hids) (built_ofArrivals digits arrivals).sound
    (built_ofArrivals digits others).sound e e' recorder

def backward : Enumeration :=
  ⟨fun _ _ neighbours => neighbours.reverse, fun _ _ neighbours => neighbours.reverse_perm⟩

def fewRoads : List Segment := [Check.maimStreet, Check.mainStreet, unplaced]

theorem runIn_backward :
    fewRoads.Perm fewRoads.reverse ∧ (fewRoads.map (·.id)).Nodup ∧
      (partlyPlaced.withNetwork (.ofArrivals 7 fewRoads)).runIn .indexed (.ofSinks [.memory]) =
        partlyPlaced.run (.ofSinks [.memory]) ∧
      (partlyPlaced.run (.ofSinks [.memory])).map (·.1.unworded) =
        ((partlyPlaced.withNetwork (.ofArrivals 7 fewRoads.reverse)).runIn backward
          (.ofSinks [.memory])).map (·.1.unworded) := by
  have hperm : fewRoads.Perm fewRoads.reverse := fewRoads.reverse_perm.symm
  have hids : (fewRoads.map (·.id)).Nodup := by decide
  exact ⟨hperm, hids, rfl, runIn_of_perm hperm hids partlyPlaced .indexed backward (.ofSinks [.memory])⟩

end Runner

end RoadNames
