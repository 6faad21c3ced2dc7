import RoadNames.Proofs.Config
import RoadNames.Proofs.Log
import RoadNames.Proofs.Run.Faults
set_option autoImplicit false

/-!
What a run leaves in the log. Every kind of record is complete, with one record for each start that it is about, or it
is missing as a whole: the level that the log was first set to decides which.
-/

namespace RoadNames.Runner

variable {r drawn : Runner} {starts : List Segment}

def placeOf (s : Segment × Nat) : Log.Place := (some (.int s.2), some (.int s.1.id))

/-- A log that lets some levels through holds, of every kind on such a level, one record for each start that it is
about. -/
structure Logged (r : Runner) (starts : List Segment) (s : Config.LogSettings) (passes : Log.Level → Bool)
    (records : List Json.Fields) : Prop where
  flags : Log.places "flag" records =
    if passes .info then (starts.zipIdx.filter fun t => (r.flag? t.1).isSome).map placeOf else []
  failures : Log.places "check_error" records =
    if passes .error then (starts.zipIdx.filter fun t => r.fails t.1).map placeOf else []
  progress : (Log.places "segment_start" records).Perm
    (if s.debug && passes .debug then
      (starts.zipIdx.filter fun t => (t.2 : Int) % s.sampleEvery = 0).map placeOf else [])

structure Complete (r : Runner) (starts : List Segment) (s : Config.LogSettings)
    (records : List Json.Fields) : Prop where
  flags : Log.places "flag" records = (starts.zipIdx.filter fun t => (r.flag? t.1).isSome).map placeOf
  failures : Log.places "check_error" records = (starts.zipIdx.filter fun t => r.fails t.1).map placeOf
  progress : (Log.places "segment_start" records).Perm
    (if s.debug then (starts.zipIdx.filter fun t => (t.2 : Int) % s.sampleEvery = 0).map placeOf else [])

/-- The levels let through all that there is to tell of some starts. -/
structure Heard (r : Runner) (starts : List Segment) (s : Config.LogSettings) (passes : Log.Level → Bool) : Prop where
  flags : (∃ t ∈ starts, (r.flag? t).isSome = true) → passes .info = true
  failures : (∃ t ∈ starts, r.fails t = true) → passes .error = true
  progress : s.debug = true → starts ≠ [] → passes .debug = true

theorem kept_eq_iff {kept : Bool} {all : List Log.Place} :
    (if kept then all else []) = all ↔ (all ≠ [] → kept = true) := by
  cases kept <;> simp [eq_comm]

theorem kept_perm_iff {kept : Bool} {all : List Log.Place} :
    (if kept then all else []).Perm all ↔ (all ≠ [] → kept = true) := by
  cases kept <;> simp [List.nil_perm]

theorem places_of_starts_ne_nil_iff (about : Segment → Bool) :
    (starts.zipIdx.filter fun t => about t.1).map placeOf ≠ [] ↔ ∃ s ∈ starts, about s = true := by
  have hexists : (∃ t ∈ starts.zipIdx, about t.1 = true) ↔ ∃ s ∈ starts, about s = true := by
    conv_rhs => rw [← List.zipIdx_map_fst 0 starts]
    simp only [List.mem_map, exists_exists_and_eq_and]
  rw [← hexists]
  simp [List.filter_eq_nil_iff]

theorem places_of_positions_ne_nil_iff (every : Int) :
    (starts.zipIdx.filter fun t => (t.2 : Int) % every = 0).map placeOf ≠ [] ↔ starts ≠ [] := by
  cases starts <;> simp [List.zipIdx_cons]

/-- A log that some levels are kept from is still complete if there is nothing to tell on these levels, and only
then. -/
theorem Logged.complete_iff {s : Config.LogSettings} {passes : Log.Level → Bool} {records : List Json.Fields}
    (h : r.Logged starts s passes records) : r.Complete starts s records ↔ r.Heard starts s passes := by
  have hflags : Log.places "flag" records = (starts.zipIdx.filter fun t => (r.flag? t.1).isSome).map placeOf ↔
      ((∃ t ∈ starts, (r.flag? t).isSome = true) → passes .info = true) := by
    rw [h.flags, kept_eq_iff, places_of_starts_ne_nil_iff fun t => (r.flag? t).isSome]
  have hfailures : Log.places "check_error" records = (starts.zipIdx.filter fun t => r.fails t.1).map placeOf ↔
      ((∃ t ∈ starts, r.fails t = true) → passes .error = true) := by
    rw [h.failures, kept_eq_iff, places_of_starts_ne_nil_iff r.fails]
  have hprogress : (Log.places "segment_start" records).Perm
      (if s.debug then (starts.zipIdx.filter fun t => (t.2 : Int) % s.sampleEvery = 0).map placeOf else []) ↔
      (s.debug = true → starts ≠ [] → passes .debug = true) := by
    rw [h.progress.congr_left]
    cases s.debug
    · simp
    · simp only [Bool.true_and, if_true, true_implies]
      rw [kept_perm_iff, places_of_positions_ne_nil_iff]
  constructor
  · exact fun hfull => ⟨hflags.mp hfull.flags, hfailures.mp hfull.failures, hprogress.mp hfull.progress⟩
  · exact fun hheard => ⟨hflags.mpr hheard.flags, hfailures.mpr hheard.failures, hprogress.mpr hheard.progress⟩

/-- A step that does not end the run has told what checking its start alone comes to, whatever became of the write. -/
theorem events_of_step {q : Runner} (hcheck : q.check = r.check) {s : Segment} {position : Nat}
    {before after : Report} (h : q.step r.network.collect position s before = .ok after) :
    after.events = before.events ++ r.told [s] position := by
  have hanswer : q.check.flagBy r.network.collect s = r.check.flag r.network s := by
    rw [hcheck]
    rfl
  have htold : r.told [s] position = .segmentStart (.int s.id) position :: r.outcome s position := by simp [told]
  unfold step at h
  rw [hanswer] at h
  rw [htold, outcome]
  cases hflag : r.check.flag r.network s with
  | error fault =>
    rw [hflag] at h
    cases h
    simp [failureEvent]
  | ok answer =>
    rw [hflag] at h
    cases answer with
    | none =>
      cases h
      rfl
    | some f =>
      dsimp only at h
      split at h
      · cases h
      · split at h
        · cases h
        · cases h
          simp [flagEvent]

theorem events_of_steps {q : Runner} (hcheck : q.check = r.check) {position : Nat} {before after : Report}
    (h : q.steps r.network.collect position starts before = .ok after) :
    after.events = before.events ++ r.told starts position := by
  induction starts generalizing position before with
  | nil =>
    cases h
    simp [told]
  | cons s rest ih =>
    unfold steps at h
    split at h
    · cases h
    · rename_i next hnext
      rw [ih h, events_of_step hcheck hnext]
      simp [told]

theorem check_drawn (hstarts : r.startSegments = .ok (starts, drawn)) : drawn.check = r.check := by
  unfold startSegments at hstarts
  split at hstarts
  · cases hstarts
    rfl
  · dsimp only at hstarts
    split at hstarts
    · cases hstarts
    · cases hstarts
      rfl

theorem events_of_run {recorder : Recorder} {report : Report} {after : Runner}
    (hstarts : r.startSegments = .ok (starts, drawn)) (hrun : r.run recorder = .ok (report, after)) :
    ∃ workers, report.events = .runStart starts.length workers :: r.told starts 0 := by
  unfold run runBy at hrun
  rw [hstarts] at hrun
  dsimp only at hrun
  split at hrun
  · cases hrun
  · rename_i hsteps
    cases hrun
    exact ⟨_, events_of_steps (check_drawn hstarts) hsteps⟩

variable {l : Log.Logger} {s : Log.Settings} {title : String}

theorem places_segmentStart (t : Segment × Nat) :
    Log.places title (Log.records l s [.segmentStart (.int t.1.id) t.2]) =
      if "segment_start" == title && (s.debug && l.admits .debug && (t.2 : Int) % max 1 s.sampleEvery == 0)
      then [placeOf t] else [] := by
  rw [Log.places_singleton (Log.Event.plain_segmentStart _ _), Bool.and_right_comm]
  rfl

theorem places_failureEvent (t : Segment × Nat) (fault : DataFault) :
    Log.places title (Log.records l s [failureEvent t.1 fault t.2]) =
      if "check_error" == title && l.admits .error then [placeOf t] else [] := by
  have hplain : (failureEvent t.1 fault t.2).Plain := by
    simp [failureEvent, Log.Event.Plain, Log.Event.fields, Table.keys]
  rw [Log.places_singleton hplain]
  simp only [failureEvent, Log.Settings.selects, Bool.true_and]
  rfl

theorem places_flagEvent (f : Flag) (position : Nat) :
    Log.places title (Log.records l s [flagEvent f position]) =
      if "flag" == title && l.admits .info then [placeOf (f.start, position)] else [] := by
  have hplain : (flagEvent f position).Plain := by
    simp [flagEvent, Log.Event.Plain, Log.Event.fields, Table.keys]
  rw [Log.places_singleton hplain]
  simp only [flagEvent, Log.Settings.selects, Bool.true_and]
  rfl

theorem outcome_cases (r : Runner) (s : Segment) (position : Nat) :
    (∃ fault, r.fails s = true ∧ r.flag? s = none ∧ r.outcome s position = [failureEvent s fault position]) ∨
    (r.fails s = false ∧ r.flag? s = none ∧ r.outcome s position = []) ∨
    (∃ f, f.start = s ∧ r.fails s = false ∧ r.flag? s = some f ∧ r.outcome s position = [flagEvent f position]) := by
  unfold fails flag? outcome
  cases hflag : r.check.flag r.network s with
  | error fault => exact .inl ⟨fault, rfl, rfl, rfl⟩
  | ok answer =>
    cases answer with
    | none => exact .inr (.inl ⟨rfl, rfl, rfl⟩)
    | some f =>
      obtain ⟨_, _, _, _, rfl⟩ := Check.exists_of_flag hflag
      exact .inr (.inr ⟨_, rfl, rfl, rfl, rfl⟩)

theorem places_outcome_flag (t : Segment × Nat) :
    Log.places "flag" (Log.records l s (r.outcome t.1 t.2)) =
      if l.admits .info && (r.flag? t.1).isSome then [placeOf t] else [] := by
  obtain ⟨fault, _, hflag, heq⟩ | ⟨_, hflag, heq⟩ | ⟨f, hstart, _, hflag, heq⟩ := outcome_cases r t.1 t.2
  · rw [heq, places_failureEvent t, hflag]
    simp
  · rw [heq, hflag]
    simp [Log.places, Log.records]
  · rw [heq, places_flagEvent, hflag, hstart]
    simp

theorem places_outcome_failure (t : Segment × Nat) :
    Log.places "check_error" (Log.records l s (r.outcome t.1 t.2)) =
      if l.admits .error && r.fails t.1 then [placeOf t] else [] := by
  obtain ⟨fault, hfails, _, heq⟩ | ⟨hfails, _, heq⟩ | ⟨f, _, hfails, _, heq⟩ := outcome_cases r t.1 t.2
  · rw [heq, places_failureEvent t, hfails]
    simp
  · rw [heq, hfails]
    simp [Log.places, Log.records]
  · rw [heq, places_flagEvent, hfails]
    simp

theorem places_outcome_progress (t : Segment × Nat) :
    Log.places "segment_start" (Log.records l s (r.outcome t.1 t.2)) = [] := by
  obtain ⟨fault, _, _, heq⟩ | ⟨_, _, heq⟩ | ⟨f, _, _, _, heq⟩ := outcome_cases r t.1 t.2
  · simp [heq, places_failureEvent t]
  · simp [heq, Log.places, Log.records]
  · simp [heq, places_flagEvent]

theorem places_history {report : Report} {workers : Int} (elapsed : Json)
    (hevents : report.events = .runStart starts.length workers :: r.told starts 0)
    (hstart : title ≠ "run_start") (hend : title ≠ "run_end") :
    Log.places title (Log.records l s (report.history elapsed)) = starts.zipIdx.flatMap fun t =>
      Log.places title (Log.records l s [.segmentStart (.int t.1.id) t.2]) ++
        Log.places title (Log.records l s (r.outcome t.1 t.2)) := by
  have hbegin : Log.places title (Log.records l s [.runStart starts.length workers]) = [] :=
    Log.places_of_title_ne (by simp [Log.Event.Plain, Log.Event.fields, Table.keys]) hstart.symm
  have hover : ∀ checked flagged errors,
      Log.places title (Log.records l s [.runEnd checked flagged errors elapsed]) = [] := fun _ _ _ =>
    Log.places_of_title_ne (by simp [Log.Event.Plain, Log.Event.fields, Table.keys]) hend.symm
  rw [Report.history, hevents, ← List.singleton_append, Log.places_append, Log.places_append, hbegin, hover,
    List.nil_append, List.append_nil, told, Log.places_flatMap]
  refine List.flatMap_congr fun t _ => ?_
  rw [← List.singleton_append, Log.places_append]

theorem flatMap_places (kept : Bool) (about : Segment × Nat → Bool) (ts : List (Segment × Nat)) :
    (ts.flatMap fun t => if kept && about t then [placeOf t] else []) =
      if kept then (ts.filter about).map placeOf else [] := by
  induction ts with
  | nil => cases kept <;> rfl
  | cons t rest ih => cases kept <;> cases h : about t <;> simp_all

theorem logged_of_run {recorder : Recorder} {report : Report} {after : Runner} {events : List Log.Event}
    {elapsed : Json} {c : Config} (hsample : 1 ≤ c.log.sampleEvery) (hstarts : r.startSegments = .ok (starts, drawn))
    (hrun : r.run recorder = .ok (report, after)) (hevents : Log.Reordered (report.history elapsed) events) :
    r.Logged starts c.log l.admits (Log.records l (Application.settingsOf c) events) := by
  obtain ⟨workers, htold⟩ := events_of_run hstarts hrun
  refine ⟨?_, ?_, ?_⟩
  · rw [hevents.places_eq (by decide), places_history elapsed htold (by decide) (by decide), ← flatMap_places]
    refine List.flatMap_congr fun t _ => ?_
    rw [places_segmentStart, places_outcome_flag]
    rfl
  · rw [hevents.places_eq (by decide), places_history elapsed htold (by decide) (by decide), ← flatMap_places]
    refine List.flatMap_congr fun t _ => ?_
    rw [places_segmentStart, places_outcome_failure]
    rfl
  · refine hevents.places_perm.trans (.of_eq ?_)
    rw [places_history elapsed htold (by decide) (by decide), ← flatMap_places]
    refine List.flatMap_congr fun t _ => ?_
    rw [places_segmentStart, places_outcome_progress, List.append_nil]
    simp [Application.settingsOf, Int.max_eq_right hsample]

/-- A run with accepted settings comes to its end, unless a write fails for good. Its log, whenever the progress of its
starts was told, is complete in every kind of record whose level is let through, and hence complete if and only if the
levels that are kept back have nothing to tell. The first settings that are put to use let progress through on the
lowest level, flags on the lowest two and failures always, and later settings change nothing. -/
theorem run_logged {env : Config.Environment} {document : Json} {c : Config}
    (hc : Config.read env document = .valid c) (hstarts : r.startSegments = .ok (starts, drawn))
    (recorder : Recorder) :
    (r.network.Built → r.starts = none → recorder.Contained →
      ∃ report, r.run recorder = .ok (report, drawn) ∧ drawn.run recorder = .ok (report, drawn)) ∧
    (∀ report after, r.run recorder = .ok (report, after) →
      ∀ elapsed events, Log.Reordered (report.history elapsed) events → ∀ earlier l : Log.Logger,
        l = earlier.withLevel c.log.level → ∀ records, records = Log.records l (Application.settingsOf c) events →
        r.Logged starts c.log l.admits records ∧
        (r.Complete starts c.log records ↔ r.Heard starts c.log l.admits)) ∧
    ((Log.Logger.fresh.withLevel c.log.level).admits .debug = true ↔ c.log.level = .debug) ∧
    ((Log.Logger.fresh.withLevel c.log.level).admits .info = true ↔ c.log.level = .debug ∨ c.log.level = .info) ∧
    (Log.Logger.fresh.withLevel c.log.level).admits .error = true ∧
    ∀ earlier : Log.Logger, earlier ≠ .fresh → earlier.withLevel c.log.level = earlier := by
  have hbounds := (Config.read_inBounds env document c hc).log
  refine ⟨fun hg hfresh hrec => ⟨_, run_of_withstands hg hfresh hstarts (hrec.withstands _)⟩, ?_,
    Log.Logger.admits_debug_iff _, Log.Logger.admits_info_iff _, Log.Logger.admits_error hbounds.level,
    fun earlier hearlier => Log.Logger.withLevel_of_ne_fresh hearlier _⟩
  rintro report after hrun elapsed events hevents earlier l rfl records rfl
  have hlogged : r.Logged starts c.log (earlier.withLevel c.log.level).admits _ :=
    logged_of_run hbounds.sampleEvery hstarts hrun hevents
  exact ⟨hlogged, hlogged.complete_iff⟩

def loggingWith (log : Json.Fields) : Json :=
  .obj [("name", .str "sample"), ("graph", .obj [("by", .str "name"), ("name", .str "roads")]), ("log", .obj log)]

theorem contained_memory : (Recorder.ofSinks [.memory]).Contained := by
  intro s hs n _ fault hfault
  obtain rfl : s = .memory := by simpa [Recorder.ofSinks] using hs
  cases hfault

theorem flag?_maimStreet : (misspelt.flag? Check.maimStreet).isSome = true := by
  obtain ⟨f, hflag, _⟩ := Check.exists_flag_maimStreet
  have hsame : misspelt.check.flag misspelt.network Check.maimStreet = .ok (some f) := hflag
  simp [flag?, hsame]

theorem maimStreet_mem_flagged :
    placeOf (Check.maimStreet, 0) ∈
      ([Check.maimStreet, Check.mainStreet].zipIdx.filter fun t => (misspelt.flag? t.1).isSome).map placeOf :=
  List.mem_map_of_mem (List.mem_filter.mpr ⟨List.mem_cons_self, flag?_maimStreet⟩)

theorem run_logged_misspelt : ∃ c drawn report,
    Config.read [] (loggingWith [("level", .str "DEBUG"), ("debug", .bool true), ("sample_every", .int 2)]) = .valid c ∧
    misspelt.startSegments = .ok ([Check.maimStreet, Check.mainStreet], drawn) ∧
    misspelt.run (.ofSinks [.memory]) = .ok (report, drawn) ∧
    ∀ elapsed records,
      records = Log.records (Log.Logger.fresh.withLevel c.log.level) (Application.settingsOf c)
        (report.history elapsed) →
      misspelt.Complete [Check.maimStreet, Check.mainStreet] c.log records ∧
      placeOf (Check.maimStreet, 0) ∈ Log.places "flag" records ∧
      Log.places "segment_start" records = [placeOf (Check.maimStreet, 0)] := by
  obtain ⟨drawn, hstarts⟩ := startSegments_misspelt
  obtain ⟨c, hread, hlog⟩ : ∃ c,
      Config.read [] (loggingWith [("level", .str "DEBUG"), ("debug", .bool true), ("sample_every", .int 2)]) =
        .valid c ∧ c.log = ⟨.debug, true, 2⟩ := ⟨_, rfl, rfl⟩
  obtain ⟨hends, hcomplete, _⟩ := run_logged hread hstarts (.ofSinks [.memory])
  obtain ⟨report, hrun, _⟩ := hends Check.built_misspeltRoads rfl contained_memory
  refine ⟨c, drawn, report, hread, hstarts, hrun, ?_⟩
  rintro elapsed _ rfl
  obtain ⟨_, hiff⟩ := hcomplete report drawn hrun elapsed _ (.refl _) .fresh _ rfl _ rfl
  have hadmits : ∀ kind, (Log.Logger.fresh.withLevel c.log.level).admits kind = true := by
    rw [hlog]
    exact fun kind => by cases kind <;> rfl
  have hfull := hiff.mpr ⟨fun _ => hadmits _, fun _ => hadmits _, fun _ _ => hadmits _⟩
  refine ⟨hfull, ?_, ?_⟩
  · rw [hfull.flags]
    exact maimStreet_mem_flagged
  · have hprogress := hfull.progress
    rw [hlog] at hprogress
    rw [hlog]
    exact List.perm_singleton.mp hprogress

/-- A level above that of flags is accepted. The log is then without them, and without progress even in debug mode. -/
theorem misspelt_not_logged : ∃ c drawn report,
    Config.read [] (loggingWith [("level", .str "WARNING"), ("debug", .bool true), ("sample_every", .int 1)]) =
      .valid c ∧ c.log = ⟨.warning, true, 1⟩ ∧
    misspelt.startSegments = .ok ([Check.maimStreet, Check.mainStreet], drawn) ∧
    misspelt.run (.ofSinks [.memory]) = .ok (report, drawn) ∧
    (misspelt.flag? Check.maimStreet).isSome = true ∧
    ∀ elapsed records,
      records = Log.records (Log.Logger.fresh.withLevel c.log.level) (Application.settingsOf c)
        (report.history elapsed) →
      Log.places "flag" records = [] ∧ Log.places "segment_start" records = [] ∧
      ¬ misspelt.Complete [Check.maimStreet, Check.mainStreet] c.log records := by
  obtain ⟨drawn, hstarts⟩ := startSegments_misspelt
  have hrun := (run_of_withstands Check.built_misspeltRoads rfl hstarts (contained_memory.withstands _)).1
  obtain ⟨c, hread, hlog⟩ : ∃ c,
      Config.read [] (loggingWith [("level", .str "WARNING"), ("debug", .bool true), ("sample_every", .int 1)]) =
        .valid c ∧ c.log = ⟨.warning, true, 1⟩ := ⟨_, rfl, rfl⟩
  refine ⟨c, drawn, _, hread, hlog, hstarts, hrun, flag?_maimStreet, ?_⟩
  rintro elapsed records hrecords
  have hsample : 1 ≤ c.log.sampleEvery := by simp [hlog]
  have hlogged : misspelt.Logged _ c.log (Log.Logger.fresh.withLevel c.log.level).admits records :=
    hrecords ▸ logged_of_run hsample hstarts hrun (.refl _)
  rw [hlog] at hlogged
  have hflags : Log.places "flag" records = [] := hlogged.flags
  have hprogress : Log.places "segment_start" records = [] := by
    have hperm := hlogged.progress
    exact List.perm_nil.mp hperm
  refine ⟨hflags, hprogress, fun hcomplete => ?_⟩
  have hnone := hcomplete.flags.symm.trans hflags
  exact List.not_mem_nil (hnone ▸ maimStreet_mem_flagged)

end RoadNames.Runner
