import RoadNames.Proofs.Run.Evaluation
set_option autoImplicit false

namespace RoadNames.Runner

variable {r : Runner}

theorem ofSinks_of_ne_nil {sinks : List Sink} (h : sinks ≠ []) : Recorder.ofSinks sinks = ⟨sinks, []⟩ := by
  simp [Recorder.ofSinks, h]

/-- A run comes to the same whichever of its writes fail, as long as they fail in a way that is contained. A
sink misses the payloads of its own failed writes and no others, and every failed write is counted. -/
theorem run_contains_faults {sinks : List Sink} (hg : r.network.Built) (hfresh : r.starts = none)
    (hpos : 0 < r.fraction) (hcount : r.network.segments.length < 2 ^ 1023) (hsinks : sinks ≠ [])
    (hfaults : ∀ s ∈ sinks, ∀ n payload fault, s.faults n payload = some fault → fault.isContained = true) :
    ∃ starts drawn payloads report whole,
      r.startSegments = .ok (starts, drawn) ∧ payloads = starts.filterMap r.payload? ∧
      r.run (.ofSinks sinks) = .ok (report, drawn) ∧
      r.run (.ofSinks (sinks.map Sink.faultless)) = .ok (whole, drawn) ∧
      report.summary = whole.summary ∧ report.events = whole.events ∧
      whole.recorder.sinks = sinks.map (fun s => s.faultless.taking payloads) ∧
      whole.recorder.failed = 0 ∧
      report.recorder.sinks = sinks.map (fun s =>
        { s with attempts := s.attempts + payloads.length, received := s.received ++ s.accepted payloads }) ∧
      report.recorder.failed = (sinks.map fun s => s.refused payloads).sum := by
  obtain ⟨starts, drawn, hstarts, _⟩ := startSegments_of_pos hg.sound hfresh hpos hcount
  rw [ofSinks_of_ne_nil hsinks, ofSinks_of_ne_nil (by simpa using hsinks)]
  have hcontained : (Recorder.mk sinks []).Contained := hfaults
  have htakes : (Recorder.mk (sinks.map Sink.faultless) []).Takes (starts.filterMap r.payload?) := by
    intro s hs
    obtain ⟨t, _, rfl⟩ := List.mem_map.mp hs
    exact t.takes_faultless _
  have hwithstands := hcontained.withstands (starts.filterMap r.payload?)
  obtain ⟨hsome, hfailed⟩ := hwithstands.emitAll
  have hall := htakes.emitAll
  have hrun := (run_of_withstands hg hfresh hstarts hwithstands).1
  have hwhole := (run_of_withstands hg hfresh hstarts htakes.withstands).1
  refine ⟨starts, drawn, _, _, _, hstarts, rfl, hrun, hwhole, rfl, rfl, ?_, ?_, hsome, ?_⟩
  · simp [reportAfter, opening, hall, Recorder.taking, Function.comp_def]
  · simp [reportAfter, opening, hall, Recorder.taking, Recorder.failed]
  · exact hfailed.trans (Nat.zero_add _)

open Check

def misspelt : Runner where
  network := misspeltRoads
  check := unlimited
  generator := ⟨0#128, 1#128, none⟩

def lateSink : Sink := { Sink.memory with faults := fun n _ => if n = 0 then some .device else none }

theorem accepted_lateSink (first : Json) (others : List Json) :
    lateSink.accepted (first :: others) = others ∧ lateSink.refused (first :: others) = 1 := by
  have htakes : (lateSink.writing [first]).Takes others := by
    intro p hp
    have hone : 1 ≤ p.2 := List.le_snd_of_mem_zipIdx hp
    simp [Sink.writing, lateSink, Nat.ne_of_gt hone]
  obtain ⟨haccepted, hrefused⟩ := htakes.accepted_eq
  constructor
  · exact (Sink.accepted_append lateSink [first] others).trans haccepted
  · exact (Sink.refused_append lateSink [first] others).trans (by rw [hrefused]; rfl)

theorem startSegments_misspelt : ∃ drawn, misspelt.startSegments = .ok ([maimStreet, mainStreet], drawn) := by
  have hids : ((misspelt.candidates.1.filter Check.validStart).map (·.id)) = [1, 2] := by decide +kernel
  have hsorted : startIds misspelt.candidates.1 = [1, 2] := by
    rw [startIds, hids]
    exact List.mergeSort_of_pairwise (by decide)
  have hfull := startSegments_of_full (r := misspelt) rfl (by decide +kernel)
  rwa [hsorted] at hfull

theorem payload_maimStreet : ∃ payload, misspelt.payload? maimStreet = some payload := by
  obtain ⟨f, hflag, _⟩ := exists_flag_maimStreet
  have hfound : misspelt.flag? maimStreet = some f := by
    have hsame : misspelt.check.flag misspelt.network maimStreet = .ok (some f) := hflag
    simp [flag?, hsame]
  have hpoints := points_ne_nil built_misspeltRoads.sound maimStreet_mem_segments hfound
  obtain ⟨payload, _, hown, _⟩ := payload_of_flag? hfound hpoints
  exact ⟨payload, hown⟩

theorem run_with_lateSink :
    ∃ drawn first others report whole,
      misspelt.network.Built ∧ misspelt.starts = none ∧ 0 < misspelt.fraction ∧
      misspelt.network.segments.length < 2 ^ 1023 ∧
      misspelt.run (.ofSinks [lateSink, .memory]) = .ok (report, drawn) ∧
      misspelt.run (.ofSinks [lateSink.faultless, .memory]) = .ok (whole, drawn) ∧
      report.summary = whole.summary ∧ report.events = whole.events ∧
      report.recorder.sinks.map (·.received) = [others, first :: others] ∧
      whole.recorder.sinks.map (·.received) = [first :: others, first :: others] ∧
      report.recorder.failed = 1 ∧ whole.recorder.failed = 0 := by
  obtain ⟨first, hfirst⟩ := payload_maimStreet
  have hpos : 0 < misspelt.fraction := by decide +kernel
  have hcount : misspelt.network.segments.length < 2 ^ 1023 := by
    have hlength : misspelt.network.segments.length = 2 := rfl
    omega
  have hfaults : ∀ s ∈ [lateSink, Sink.memory], ∀ n payload fault, s.faults n payload = some fault →
      fault.isContained = true := by
    intro s hs n _ fault hfault
    rcases List.mem_pair.mp hs with rfl | rfl
    · simp only [lateSink] at hfault
      split at hfault <;> cases hfault
      rfl
    · cases hfault
  obtain ⟨starts, drawn, payloads, report, whole, hstarts, hpayloads, hrun, hwhole, hsummary, hevents, hall,
    hnone, hsome, hfailed⟩ := run_contains_faults built_misspeltRoads rfl hpos hcount (by simp) hfaults
  obtain ⟨_, hdrawn⟩ := startSegments_misspelt
  obtain ⟨rfl, rfl⟩ := Prod.ext_iff.mp (Except.ok.inj (hdrawn.symm.trans hstarts))
  rw [List.filterMap_cons_some hfirst] at hpayloads
  generalize [mainStreet].filterMap misspelt.payload? = others at hpayloads
  subst hpayloads
  obtain ⟨hlate, hlost⟩ := accepted_lateSink first others
  have hmemory : Sink.memory.Takes (first :: others) := fun _ _ => rfl
  obtain ⟨htaken, hkept⟩ := hmemory.accepted_eq
  refine ⟨_, first, others, report, whole, built_misspeltRoads, rfl, hpos, hcount, hrun, hwhole, hsummary,
    hevents, ?_, ?_, ?_, hnone⟩
  · simp only [hsome, List.map_cons, List.map_nil, hlate, htaken]
    rfl
  · simp only [hall, List.map_cons, List.map_nil]
    rfl
  · simp only [hfailed, List.map_cons, List.map_nil, hlost, hkept]
    rfl

end RoadNames.Runner
