import Mathlib.Data.List.Forall2
import RoadNames.Proofs.Log
import RoadNames.Proofs.Output
import RoadNames.Proofs.Run.Starts
import RoadNames.Proofs.Task.Payload
set_option autoImplicit false

/-!
A run checks each of its starts as if the others were not there. It always comes to an end, and the
summary, the payloads and the events say what each start comes to on its own, in order.
-/

namespace RoadNames.Runner

def flag? (r : Runner) (s : Segment) : Option Flag :=
  match r.check.flag r.network s with
  | .ok flag => flag
  | .error _ => none

def fails (r : Runner) (s : Segment) : Bool := !(r.check.flag r.network s).isOk

/-- What is told of a start once it is checked: its fault, or the pairs that its flag is about. -/
def outcome (r : Runner) (s : Segment) (position : Nat) : List Log.Event :=
  match r.check.flag r.network s with
  | .error fault => [.failure (.int s.id) fault.message "GraphDataError" [("seq", .int position)]]
  | .ok none => []
  | .ok (some f) => [.flag (.int f.start.id) (Json.ofText? f.start.name)
      (f.pairs.map fun p => (.int p.otherId, Json.ofText? p.otherName)) position]

def failedIds (r : Runner) (starts : List Segment) : List Int := (starts.filter r.fails).map (·.id)

def told (r : Runner) (starts : List Segment) (position : Nat) : List Log.Event :=
  (starts.zipIdx position).flatMap fun s => .segmentStart (.int s.1.id) s.2 :: r.outcome s.1 s.2

/-- The payload of the task that the flag of a start becomes, if it gets a flag. -/
def payload? (r : Runner) (s : Segment) : Option Json :=
  (r.flag? s).bind fun f => (Task.ofFlag f r.project).toOption.bind fun task => (task.payload r.parent).toOption

/-- The report after some more starts, the first of which has the given position. -/
def reportAfter (r : Runner) (before : Report) (starts : List Segment) (position : Nat) : Report where
  summary := {
    checked := before.summary.checked + starts.length
    flagged := before.summary.flagged + (starts.filterMap r.payload?).length
    errors := before.summary.errors + (r.failedIds starts).length
    failedIds := before.summary.failedIds ++ r.failedIds starts }
  events := before.events ++ r.told starts position
  recorder := before.recorder.emitAll (starts.filterMap r.payload?)

variable {r : Runner}

/-- The payloads of the tasks that the flags among some starts become, one for each flag. They do not depend on
the project. -/
def Payloads (r : Runner) (starts : List Segment) (payloads : List Json) : Prop :=
  ∀ project, List.Forall₂
    (fun f payload => ∃ task, Task.ofFlag f project = .ok task ∧ task.payload r.parent = .ok payload)
    (starts.filterMap r.flag?) payloads

theorem payload_of_flag? {s : Segment} {f : Flag} (hflag : r.flag? s = some f) (h : f.points ≠ []) :
    ∃ payload, r.payloadOf f = .ok payload ∧ r.payload? s = some payload ∧
      ∀ project, ∃ task, Task.ofFlag f project = .ok task ∧ task.payload r.parent = .ok payload := by
  obtain ⟨payload, hpayload⟩ := Task.payload_ofFlag h r.parent
  obtain ⟨task, htask, hok⟩ := hpayload r.project
  exact ⟨payload, by simp [payloadOf, htask, hok], by simp [payload?, hflag, htask, hok, Except.toOption], hpayload⟩

/-- Checking a start adds what it comes to on its own, whatever the starts before it have led to. -/
theorem step_eq {s : Segment} (position : Nat) {before : Report}
    (hrec : before.recorder.Withstands ([s].filterMap r.payload?))
    (hpoints : ∀ f, r.flag? s = some f → f.points ≠ []) :
    r.step r.network.collect position s before = .ok (r.reportAfter before [s] position) := by
  cases hflag : r.check.flag r.network s with
  | error fault =>
    have hanswer : r.check.flagBy r.network.collect s = .error fault := hflag
    simp [step, hanswer, hflag, reportAfter, Recorder.emitAll, payload?, flag?, failedIds, fails, told, outcome,
      failureEvent, Except.isOk, Except.toBool]
  | ok answer =>
    cases answer with
    | none =>
      have hanswer : r.check.flagBy r.network.collect s = .ok none := hflag
      simp [step, hanswer, hflag, reportAfter, Recorder.emitAll, payload?, flag?, failedIds, fails, told, outcome,
        Except.isOk, Except.toBool]
    | some f =>
      have hanswer : r.check.flagBy r.network.collect s = .ok (some f) := hflag
      have hfound : r.flag? s = some f := by simp [flag?, hflag]
      obtain ⟨payload, hpayload, hown, _⟩ := payload_of_flag? hfound (hpoints f hfound)
      have hpayloads : [s].filterMap r.payload? = [payload] := by simp [hown]
      rw [hpayloads] at hrec
      have hemit : before.recorder.emit payload = (none, (before.recorder.emit payload).2) :=
        Prod.ext hrec.emit.1 rfl
      rw [step, hanswer]
      simp only [hpayload]
      rw [hemit]
      simp [hflag, hown, reportAfter, Recorder.emitAll, failedIds, fails, told, outcome, flagEvent, Except.isOk,
        Except.toBool]

theorem reportAfter_cons (s : Segment) (rest : List Segment) (position : Nat) (before : Report) :
    r.reportAfter (r.reportAfter before [s] position) rest (position + 1) =
      r.reportAfter before (s :: rest) position := by
  have hpayloads : (s :: rest).filterMap r.payload? = [s].filterMap r.payload? ++ rest.filterMap r.payload? := by
    rw [← List.filterMap_append, List.singleton_append]
  have hfailed : r.failedIds (s :: rest) = r.failedIds [s] ++ r.failedIds rest := by
    simp only [failedIds, ← List.map_append, ← List.filter_append, List.singleton_append]
  have htold : r.told (s :: rest) position = r.told [s] position ++ r.told rest (position + 1) := by
    simp [told]
  simp only [reportAfter, hpayloads, hfailed, htold, Recorder.emitAll_append, List.append_assoc,
    List.length_append, List.length_cons, List.length_nil]
  congr 2 <;> omega

theorem steps_of_withstands {starts : List Segment} (position : Nat) (before : Report)
    (hrec : before.recorder.Withstands (starts.filterMap r.payload?))
    (hpoints : ∀ s ∈ starts, ∀ f, r.flag? s = some f → f.points ≠ []) :
    r.steps r.network.collect position starts before = .ok (r.reportAfter before starts position) := by
  -- What a start adds is the same for every report before it, so the hypothesis is about all reports.
  induction starts generalizing position before with
  | nil => simp [steps, reportAfter, failedIds, told, Recorder.emitAll]
  | cons s rest ih =>
    rw [← List.singleton_append, List.filterMap_append] at hrec
    obtain ⟨hfirst, hafter⟩ := hrec.of_append
    simp only [steps, step_eq position hfirst (hpoints s (by simp)),
      ih (position + 1) (r.reportAfter before [s] position) hafter fun t ht => hpoints t (by simp [ht]),
      reportAfter_cons]

theorem payloads_filterMap {starts : List Segment}
    (hpoints : ∀ s ∈ starts, ∀ f, r.flag? s = some f → f.points ≠ []) :
    r.Payloads starts (starts.filterMap r.payload?) := by
  intro project
  induction starts with
  | nil => exact .nil
  | cons s rest ih =>
    have hrest := ih fun t ht => hpoints t (by simp [ht])
    cases hfound : r.flag? s with
    | none => simpa [payload?, hfound] using hrest
    | some f =>
      obtain ⟨payload, _, hown, htask⟩ := payload_of_flag? hfound (hpoints s (by simp) f hfound)
      rw [List.filterMap_cons_some hfound, List.filterMap_cons_some hown]
      exact .cons (htask project) hrest

theorem fails_eq {s : Segment} (hvalid : Check.validStart s = true) :
    r.fails s = !(r.network.collect s r.check.limit).isOk := by
  unfold fails
  rcases Check.flag_cases r.check r.network s with
    ⟨hnot, _⟩ | ⟨_, fault, hwalk, hflag⟩ | ⟨_, nearby, hwalk, hcase⟩
  · rw [hvalid] at hnot; cases hnot
  · rw [hwalk, hflag]; rfl
  · rcases hcase with ⟨_, hflag⟩ | ⟨_, hflag⟩ <;> rw [hwalk, hflag] <;> rfl

theorem points_ne_nil {s : Segment} {f : Flag} (hg : r.network.Sound) (hs : s ∈ r.network.segments)
    (h : r.flag? s = some f) : f.points ≠ [] := by
  have hflag : r.check.flag r.network s = .ok (some f) := by
    unfold flag? at h
    split at h
    · rename_i hanswer
      rw [hanswer, h]
    · cases h
  obtain ⟨p, _, hpoints⟩ := (Check.exact_of_flag hg hs hflag).points
  rw [hpoints]
  exact List.cons_ne_nil _ _

theorem isProgress_outcome {s : Segment} {position : Nat} {event : Log.Event}
    (h : event ∈ r.outcome s position) : event.isProgress = false := by
  unfold outcome at h
  split at h <;> simp at h <;> subst h <;> rfl

theorem filter_told (starts : List Segment) (position : Nat) :
    (r.told starts position).filter (!·.isProgress) =
      (starts.zipIdx position).flatMap fun s => r.outcome s.1 s.2 := by
  rw [told, List.filter_flatMap]
  refine List.flatMap_congr fun s _ => ?_
  have hkept : (r.outcome s.1 s.2).filter (!·.isProgress) = r.outcome s.1 s.2 :=
    List.filter_eq_self.mpr fun event h => by rw [isProgress_outcome h]; rfl
  simpa [Log.Event.isProgress] using hkept

/-- A report that says of every start what it comes to on its own, and nothing else. -/
structure Evaluated (r : Runner) (starts : List Segment) (recorder : Recorder) (report : Report) :
    Prop where
  checked : report.summary.checked = starts.length
  failed : report.summary.failedIds =
    (starts.filter fun s => !(r.network.collect s r.check.limit).isOk).map (·.id)
  errors : report.summary.errors = report.summary.failedIds.length
  recorded : ∃ payloads, r.Payloads starts payloads ∧ report.recorder = recorder.taking payloads ∧
    report.summary.flagged = payloads.length
  told : ∀ elapsed, (report.history elapsed).filter (!·.isProgress) =
    .runStart starts.length (max 1 r.workers) ::
      (starts.zipIdx.flatMap fun s => r.outcome s.1 s.2) ++
      [.runEnd report.summary.checked report.summary.flagged report.summary.errors elapsed]

theorem steps_eq_of_same {q r : Runner} (hcheck : q.check = r.check)
    (hproject : q.project = r.project) (hparent : q.parent = r.parent) (search : Search)
    (position : Nat) (rest : List Segment) (before : Report) :
    q.steps search position rest before = r.steps search position rest before := by
  induction rest generalizing position before with
  | nil => rfl
  | cons s rest ih =>
    have hstep : q.step search position s before = r.step search position s before := by
      simp only [step, payloadOf, hcheck, hproject, hparent]
    simp only [steps, hstep, ih]

theorem steps_drawn {drawn : Runner} {starts : List Segment} (hfresh : r.starts = none)
    (hstarts : r.startSegments = .ok (starts, drawn)) (search : Search) (position : Nat)
    (rest : List Segment) (before : Report) :
    drawn.steps search position rest before = r.steps search position rest before := by
  obtain ⟨_, _, _, _, rfl⟩ := startSegments_cases hfresh hstarts
  refine steps_eq_of_same ?_ ?_ ?_ search position rest before <;> rfl

theorem collect_drawn {drawn : Runner} {starts : List Segment} (hfresh : r.starts = none)
    (hstarts : r.startSegments = .ok (starts, drawn)) : drawn.network.collect = r.network.collect := by
  obtain ⟨_, _, _, _, rfl⟩ := startSegments_cases hfresh hstarts
  obtain ⟨index, hindex⟩ := r.candidates_network
  rw [hindex]
  rfl

def opening (r : Runner) (starts : List Segment) (recorder : Recorder) : Report :=
  ⟨{}, [.runStart starts.length (max 1 r.workers)], recorder⟩

theorem runBy_eq {drawn : Runner} {starts : List Segment} (hfresh : r.starts = none)
    (hstarts : r.startSegments = .ok (starts, drawn)) (search : Search) (recorder : Recorder) :
    r.runBy search recorder =
        (r.steps search 0 starts (r.opening starts recorder)).map (fun report => (report, drawn)) ∧
      drawn.runBy search recorder = r.runBy search recorder := by
  have hworkers : drawn.workers = r.workers := by
    obtain ⟨_, _, _, _, rfl⟩ := startSegments_cases hfresh hstarts
    rfl
  have hsteps := steps_drawn hfresh hstarts search 0 starts (r.opening starts recorder)
  unfold opening at hsteps ⊢
  constructor
  · simp only [runBy, hstarts, hworkers, hsteps]
    cases r.steps search 0 starts _ <;> rfl
  · simp only [runBy, hstarts, startSegments_drawn hfresh hstarts]

theorem run_eq {drawn : Runner} {starts : List Segment} {recorder : Recorder} {report : Report}
    (hfresh : r.starts = none) (hstarts : r.startSegments = .ok (starts, drawn))
    (hsteps : r.steps r.network.collect 0 starts (r.opening starts recorder) = .ok report) :
    r.run recorder = .ok (report, drawn) ∧ drawn.run recorder = .ok (report, drawn) := by
  obtain ⟨hrun, hagain⟩ := runBy_eq hfresh hstarts r.network.collect recorder
  rw [hsteps] at hrun
  refine ⟨hrun, ?_⟩
  rw [run, collect_drawn hfresh hstarts, hagain]
  exact hrun

theorem run_of_withstands {drawn : Runner} {starts : List Segment} {recorder : Recorder}
    (hg : r.network.Built) (hfresh : r.starts = none) (hstarts : r.startSegments = .ok (starts, drawn))
    (hrec : recorder.Withstands (starts.filterMap r.payload?)) :
    r.run recorder = .ok (r.reportAfter (r.opening starts recorder) starts 0, drawn) ∧
      drawn.run recorder = .ok (r.reportAfter (r.opening starts recorder) starts 0, drawn) :=
  run_eq hfresh hstarts <| steps_of_withstands 0 (r.opening starts recorder) hrec fun _ hs _ =>
    points_ne_nil hg.sound (mem_starts hg.sound hfresh hstarts hs).1

/-- Whatever the network, a run comes to an end and reports of each start what checking it alone comes
to. It makes no difference whether the starts were looked at before. -/
theorem run_evaluates_starts {drawn : Runner} {starts : List Segment} {recorder : Recorder}
    (hg : r.network.Built) (hfresh : r.starts = none) (hstarts : r.startSegments = .ok (starts, drawn))
    (hrec : ∀ payloads, r.Payloads starts payloads → recorder.Takes payloads) :
    (starts.map (·.id)).Pairwise (· < ·) ∧
    ∃ report, r.run recorder = .ok (report, drawn) ∧ drawn.run recorder = .ok (report, drawn) ∧
      r.Evaluated starts recorder report := by
  have hmem := fun s (hs : s ∈ starts) => mem_starts hg.sound hfresh hstarts hs
  have hpayloads : r.Payloads starts (starts.filterMap r.payload?) :=
    payloads_filterMap fun s hs f => points_ne_nil hg.sound (hmem s hs).1
  have htakes := hrec _ hpayloads
  obtain ⟨hrun, hagain⟩ := run_of_withstands hg hfresh hstarts htakes.withstands
  have hfailed : r.failedIds starts =
      (starts.filter fun s => !(r.network.collect s r.check.limit).isOk).map (·.id) := by
    rw [failedIds, List.filter_congr fun s hs => fails_eq (hmem s hs).2]
  refine ⟨pairwise_starts hg.sound hfresh hstarts, _, hrun, hagain, ?_, ?_, ?_, ?_, ?_⟩
  · simp [reportAfter, opening]
  · simpa [reportAfter, opening] using hfailed
  · simp [reportAfter, opening]
  · exact ⟨_, hpayloads, htakes.emitAll, by simp [reportAfter, opening]⟩
  · intro elapsed
    simp only [Report.history, reportAfter, opening, List.filter_append, filter_told]
    simp [Log.Event.isProgress]

def unplaced : Segment := ⟨3, none, none, [("name", .str "Main Street")]⟩

def partlyPlaced : Runner where
  network := .ofArrivals 7 [Check.maimStreet, Check.mainStreet, unplaced]
  check := ⟨.greatest, Check.defaultChallenge⟩
  generator := ⟨0#128, 1#128, none⟩

theorem segments_partlyPlaced :
    partlyPlaced.network.segments = [Check.maimStreet, Check.mainStreet, unplaced] := rfl

theorem startIds_partlyPlaced : startIds partlyPlaced.candidates.1 = [1, 2, 3] := by
  have hids : ((partlyPlaced.candidates.1.filter Check.validStart).map (·.id)) = [1, 2, 3] := by
    decide +kernel
  rw [startIds, hids]
  exact List.mergeSort_of_pairwise (by decide)

theorem run_fails_for_unplaced :
    ∃ starts drawn report, partlyPlaced.network.Built ∧ partlyPlaced.starts = none ∧
      partlyPlaced.startSegments = .ok (starts, drawn) ∧
      (∀ payloads, partlyPlaced.Payloads starts payloads → (Recorder.ofSinks [.memory]).Takes payloads) ∧
      (starts.map (·.id)).Pairwise (· < ·) ∧
      partlyPlaced.run (.ofSinks [.memory]) = .ok (report, drawn) ∧
      drawn.run (.ofSinks [.memory]) = .ok (report, drawn) ∧
      partlyPlaced.Evaluated starts (.ofSinks [.memory]) report ∧
      report.summary.checked = 3 ∧ 3 ∈ report.summary.failedIds := by
  have hbuilt : partlyPlaced.network.Built := Network.built_ofArrivals 7 _
  have hrec : ∀ payloads, (Recorder.ofSinks [.memory]).Takes payloads := fun payloads s hs p _ => by
    obtain rfl : s = .memory := by simpa [Recorder.ofSinks] using hs
    rfl
  obtain ⟨drawn, hstarts⟩ := startSegments_of_full (r := partlyPlaced) rfl (by decide +kernel)
  have hfound : (startIds partlyPlaced.candidates.1).filterMap partlyPlaced.network.segment? =
      [Check.maimStreet, Check.mainStreet, unplaced] := by rw [startIds_partlyPlaced]; rfl
  rw [hfound] at hstarts
  obtain ⟨hordered, report, hrun, hagain, heval⟩ :=
    run_evaluates_starts hbuilt rfl hstarts fun payloads _ => hrec payloads
  have hblocked : partlyPlaced.network.Blocked unplaced partlyPlaced.check.limit := .inl rfl
  obtain ⟨fault, hfails⟩ := Network.collect_fails_of_blocked hbuilt.sound.numbered
    (by simp [segments_partlyPlaced]) hblocked
  refine ⟨_, drawn, report, hbuilt, rfl, hstarts, fun payloads _ => hrec payloads, hordered, hrun, hagain, heval,
    heval.checked, ?_⟩
  rw [heval.failed, List.mem_map]
  exact ⟨unplaced, List.mem_filter.mpr ⟨by simp, by rw [hfails]; rfl⟩, rfl⟩

end RoadNames.Runner
