import Mathlib.Algebra.BigOperators.Group.List.Basic
import Mathlib.Algebra.GroupWithZero.Nat
import RoadNames.Output
import RoadNames.Proofs.Json.RoundTrip
set_option autoImplicit false

namespace RoadNames

namespace Sink

def taking (s : Sink) (payloads : List Json) : Sink :=
  { s with attempts := s.attempts + payloads.length, received := s.received ++ payloads }

def Takes (s : Sink) (payloads : List Json) : Prop := ∀ p ∈ payloads.zipIdx s.attempts, s.faults p.2 p.1 = none

/-- Of some payloads to be written, those whose writes do not fail. -/
def accepted (s : Sink) (payloads : List Json) : List Json :=
  ((payloads.zipIdx s.attempts).filter fun p => (s.faults p.2 p.1).isNone).map (·.1)

def refused (s : Sink) (payloads : List Json) : Nat :=
  (payloads.zipIdx s.attempts).countP fun p => (s.faults p.2 p.1).isSome

/-- The sink with some more payloads written to it, or lost. -/
def writing (s : Sink) (payloads : List Json) : Sink :=
  { s with attempts := s.attempts + payloads.length, received := s.received ++ s.accepted payloads }

def faultless (s : Sink) : Sink := { s with faults := fun _ _ => none }

variable (s : Sink)

@[simp] theorem taking_nil : s.taking [] = s := by simp [taking]

@[simp] theorem taking_taking (ps qs : List Json) : (s.taking ps).taking qs = s.taking (ps ++ qs) := by
  simp [taking, Nat.add_assoc]

@[simp] theorem writing_nil : s.writing [] = s := by simp [writing, accepted]

theorem accepted_append (ps qs : List Json) :
    s.accepted (ps ++ qs) = s.accepted ps ++ (s.writing ps).accepted qs := by
  simp [accepted, writing, List.zipIdx_append]

theorem refused_append (ps qs : List Json) :
    s.refused (ps ++ qs) = s.refused ps + (s.writing ps).refused qs := by
  simp [refused, writing, List.zipIdx_append]

@[simp] theorem writing_writing (ps qs : List Json) : (s.writing ps).writing qs = s.writing (ps ++ qs) := by
  have happend := s.accepted_append ps qs
  simp only [writing] at happend ⊢
  simp [happend, Nat.add_assoc]

theorem write_eq (payload : Json) : s.write payload = (s.faults s.attempts payload, s.writing [payload]) := by
  unfold write
  cases h : s.faults s.attempts payload <;> simp [writing, accepted, h]

variable {s} {payload : Json} {payloads : List Json}

theorem takes_cons_iff :
    s.Takes (payload :: payloads) ↔ s.faults s.attempts payload = none ∧ (s.taking [payload]).Takes payloads := by
  simp [Takes, taking, List.zipIdx_cons]

theorem takes_faultless (s : Sink) (payloads : List Json) : s.faultless.Takes payloads := fun _ _ => rfl

theorem Takes.write (h : s.Takes (payload :: payloads)) : s.write payload = (none, s.taking [payload]) := by
  simp [Sink.write, taking, (takes_cons_iff.mp h).1]

theorem Takes.accepted_eq (h : s.Takes payloads) : s.accepted payloads = payloads ∧ s.refused payloads = 0 := by
  constructor
  · rw [accepted, List.filter_eq_self.mpr fun p hp => by simp [h p hp], List.zipIdx_map_fst]
  · rw [refused, List.countP_eq_zero]
    exact fun p hp => by simp [h p hp]

end Sink

namespace Recorder

/-- No write to any of the sinks fails, whatever is written, but for faults that are contained. -/
def Contained (r : Recorder) : Prop :=
  ∀ s ∈ r.sinks, ∀ n payload fault, s.faults n payload = some fault → fault.isContained = true

/-- Nor does one of these writes, one after the other. -/
def Withstands (r : Recorder) (payloads : List Json) : Prop :=
  ∀ s ∈ r.sinks, ∀ p ∈ payloads.zipIdx s.attempts, ∀ fault, s.faults p.2 p.1 = some fault → fault.isContained = true

def Takes (r : Recorder) (payloads : List Json) : Prop := ∀ s ∈ r.sinks, s.Takes payloads

def taking (r : Recorder) (payloads : List Json) : Recorder :=
  { r with sinks := r.sinks.map fun s => s.taking payloads }

def refused (r : Recorder) (payloads : List Json) : Nat :=
  (r.sinks.map fun s => s.refused payloads).sum

def emitAll (r : Recorder) (payloads : List Json) : Recorder :=
  payloads.foldl (fun r payload => (r.emit payload).2) r

variable {r : Recorder} {payload : Json} {payloads : List Json}

theorem emitAll_append (r : Recorder) (ps qs : List Json) : r.emitAll (ps ++ qs) = (r.emitAll ps).emitAll qs :=
  List.foldl_append

@[simp] theorem taking_nil (r : Recorder) : r.taking [] = r := by simp [taking]

@[simp] theorem taking_taking (r : Recorder) (ps qs : List Json) :
    (r.taking ps).taking qs = r.taking (ps ++ qs) := by
  simp [taking, Function.comp_def]

theorem Contained.withstands (h : r.Contained) (payloads : List Json) : r.Withstands payloads :=
  fun s hs p _ fault hfault => h s hs p.2 p.1 fault hfault

theorem Takes.withstands (h : r.Takes payloads) : r.Withstands payloads := fun s hs p hp fault hfault => by
  rw [h s hs p hp] at hfault
  cases hfault

theorem writeAll_of_contained (payload : Json) {sinks : List Sink}
    (h : ∀ s ∈ sinks, ∀ fault, s.faults s.attempts payload = some fault → fault.isContained = true) :
    ∃ failures, writeAll payload sinks = (sinks.map fun s => s.writing [payload], failures, none) ∧
      failures.length = (sinks.map fun s => s.refused [payload]).sum := by
  induction sinks with
  | nil => exact ⟨[], rfl, rfl⟩
  | cons s rest ih =>
    obtain ⟨failures, hrest, hcount⟩ := ih fun t ht => h t (by simp [ht])
    cases hfault : s.faults s.attempts payload with
    | none =>
      have hown : s.refused [payload] = 0 := by simp [Sink.refused, hfault]
      exact ⟨failures, by simp [writeAll, s.write_eq, hfault, hrest], by simp [hcount, hown]⟩
    | some fault =>
      have hown : s.refused [payload] = 1 := by simp [Sink.refused, hfault]
      have hcontained := h s (by simp) fault hfault
      refine ⟨⟨s.label, taskOf payload⟩ :: failures, ?_, ?_⟩
      · simp [writeAll, s.write_eq, hfault, hcontained, hrest]
      · simp [hcount, hown, Nat.add_comm]

theorem Withstands.emit (h : r.Withstands (payload :: payloads)) :
    (r.emit payload).1 = none ∧
      (r.emit payload).2.sinks = r.sinks.map (fun s => s.writing [payload]) ∧
      (r.emit payload).2.failed = r.failed + r.refused [payload] := by
  obtain ⟨failures, hwrites, hcount⟩ := writeAll_of_contained payload fun s hs fault hfault =>
    h s hs (payload, s.attempts) (by simp [List.zipIdx_cons]) fault hfault
  simp [Recorder.emit, hwrites, failed, refused, hcount]

theorem Withstands.of_emit (h : r.Withstands (payload :: payloads)) : (r.emit payload).2.Withstands payloads := by
  intro s hs p hp fault hfault
  rw [h.emit.2.1] at hs
  obtain ⟨t, ht, rfl⟩ := List.mem_map.mp hs
  refine h t ht p ?_ fault hfault
  rw [List.zipIdx_cons]
  exact List.mem_cons_of_mem _ hp

theorem refused_append {q : Recorder} (ps qs : List Json)
    (hsinks : q.sinks = r.sinks.map fun s => s.writing ps) :
    r.refused (ps ++ qs) = r.refused ps + q.refused qs := by
  simp only [refused, hsinks, List.map_map, Function.comp_def, Sink.refused_append, List.sum_map_add]

/-- Each sink ends up as if it was the only one, and the failures of all sinks are counted together. -/
theorem Withstands.emitAll (h : r.Withstands payloads) :
    (r.emitAll payloads).sinks = r.sinks.map (fun s => s.writing payloads) ∧
      (r.emitAll payloads).failed = r.failed + r.refused payloads := by
  induction payloads generalizing r with
  | nil => simp [Recorder.emitAll, refused, Sink.refused]
  | cons payload payloads ih =>
    obtain ⟨_, hsinks, hfailed⟩ := h.emit
    obtain ⟨hall, hcount⟩ := ih h.of_emit
    have hrefused := refused_append [payload] payloads hsinks
    have hemit : r.emitAll (payload :: payloads) = (r.emit payload).2.emitAll payloads := rfl
    rw [List.singleton_append] at hrefused
    rw [hemit]
    refine ⟨?_, ?_⟩
    · rw [hall, hsinks, List.map_map]
      simp [Function.comp_def]
    · rw [hcount, hfailed, hrefused, Nat.add_assoc]

theorem Withstands.of_append {ps qs : List Json} (h : r.Withstands (ps ++ qs)) :
    r.Withstands ps ∧ (r.emitAll ps).Withstands qs := by
  have hfirst : r.Withstands ps := fun s hs p hp => h s hs p (by simp [List.zipIdx_append, hp])
  refine ⟨hfirst, fun s hs p hp fault hfault => ?_⟩
  rw [hfirst.emitAll.1] at hs
  obtain ⟨t, ht, rfl⟩ := List.mem_map.mp hs
  refine h t ht p ?_ fault hfault
  rw [List.zipIdx_append]
  exact List.mem_append_right _ hp

theorem Contained.of_emitAll (h : r.Contained) (payloads : List Json) : (r.emitAll payloads).Contained := by
  intro s hs
  rw [(h.withstands payloads).emitAll.1] at hs
  obtain ⟨t, ht, rfl⟩ := List.mem_map.mp hs
  exact h t ht

theorem writeAll_of_takes {sinks : List Sink} (h : ∀ s ∈ sinks, s.Takes (payload :: payloads)) :
    writeAll payload sinks = (sinks.map fun s => s.taking [payload], [], none) := by
  induction sinks with
  | nil => rfl
  | cons s rest ih =>
    have hrest := ih fun t ht => h t (by simp [ht])
    simp only [writeAll, (h s (by simp)).write, hrest, List.map_cons]

theorem Takes.emit (h : r.Takes (payload :: payloads)) : r.emit payload = (none, r.taking [payload]) := by
  simp [Recorder.emit, writeAll_of_takes h, Recorder.taking]

theorem Takes.of_taking (h : r.Takes (payload :: payloads)) : (r.taking [payload]).Takes payloads := by
  intro s hs
  obtain ⟨t, ht, rfl⟩ := List.mem_map.mp hs
  exact (Sink.takes_cons_iff.mp (h t ht)).2

theorem Takes.emitAll (h : r.Takes payloads) : r.emitAll payloads = r.taking payloads := by
  induction payloads generalizing r with
  | nil => simp [Recorder.emitAll]
  | cons payload payloads ih =>
    have hemit : r.emitAll (payload :: payloads) = (r.taking [payload]).emitAll payloads := by
      simp [Recorder.emitAll, h.emit]
    rw [hemit, ih h.of_taking, taking_taking, List.singleton_append]

end Recorder

namespace Output

open Json

theorem splitLines_append {line : List Char} (h : '\n' ∉ line) (rest : List Char) :
    splitLines (line ++ '\n' :: rest) = line :: splitLines rest := by
  induction line with
  | nil => simp [splitLines]
  | cons c line ih =>
    have hc : c ≠ '\n' := fun heq => h (heq ▸ List.mem_cons_self)
    have hline := ih fun hmem => h (List.mem_cons_of_mem c hmem)
    simp [splitLines, hc, hline]

theorem splitLines_linesText (payloads : List Json) :
    splitLines (linesText payloads) = payloads.map (write documentStyle) ++ [[]] := by
  induction payloads with
  | nil => rfl
  | cons payload payloads ih =>
    have htext : linesText (payload :: payloads) =
        write documentStyle payload ++ '\n' :: linesText payloads := by
      simp [linesText, line]
    rw [htext, splitLines_append (newline_not_mem_write payload), ih]
    rfl

end Output

namespace Sink

open Json Output

def writeAll (s : Sink) (payloads : List Json) : Sink := payloads.foldl (fun s payload => (s.write payload).2) s

theorem writeAll_eq (s : Sink) (payloads : List Json) : s.writeAll payloads = s.writing payloads := by
  unfold writeAll
  induction payloads generalizing s with
  | nil => simp
  | cons payload payloads ih => rw [List.foldl_cons, ih, write_eq, writing_writing, List.singleton_append]

theorem lineFault_eq (n : Nat) (p : Json) : lineFault n p = if p.Short then none else some .badValue := by
  simp only [lineFault, isWritable_iff]

theorem received_stream (payloads : List Json) :
    (stream.writing payloads).received = payloads.filter fun p => p.Short := by
  have hkept : ∀ p : Json × Nat, (stream.faults p.2 p.1).isNone = decide p.1.Short := by
    intro p
    show (lineFault p.2 p.1).isNone = _
    rw [lineFault_eq]
    by_cases h : p.1.Short <;> simp [h]
  have hfirst := List.filter_map (p := fun p : Json => decide p.Short) (f := Prod.fst) (l := payloads.zipIdx 0)
  rw [List.zipIdx_map_fst] at hfirst
  simp only [writing, accepted, stream, List.nil_append, hfirst, Function.comp_def]
  exact congrArg _ (List.filter_congr fun p _ => hkept p)

def oddPayload : Json :=
  obj [("name", str "one\n\"two\"\u2028"), ("values", arr [float (-0.0), float (1 / 0), null]),
    ("count", int (-12345678901234567890))]

def longCount : Json := obj [("count", int (10 ^ Decimal.digitLimit))]

end Sink

end RoadNames
