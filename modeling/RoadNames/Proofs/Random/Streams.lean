import Mathlib.Data.Int.ModEq
import RoadNames.Random
set_option autoImplicit false

/-!
Streams in use. Generators are asked for by name and parts and are drawn from later, in any order. What is drawn
from one stream is what a run that never heard of the others would have drawn from it.
-/

namespace RoadNames.Random

/-- What is done with streams. The generator that is asked for is held under a number, and draws are made from what
a number holds. A part that no document can hold counts as the text that shows it. -/
inductive Use (α : Type) where
  | ask (holder : Nat) (name : String) (parts : List Json)
  | draw (holder : Nat) (f : Generator → α × Generator)

/-- Which stream's generator each number holds. -/
abbrev Held := Table Nat StreamKey

namespace Use

variable {α : Type}

def stream? (held : Held) : Use α → Option StreamKey
  | .ask _ name parts => some (.ofParts name parts)
  | .draw holder _ => held.get? holder

def heldAfter (held : Held) : Use α → Held
  | .ask holder name parts => held.set holder (.ofParts name parts)
  | .draw _ _ => held

def ofStream (key : StreamKey) : Held → List (Use α) → List (Use α)
  | _, [] => []
  | held, u :: later =>
    if u.stream? held = some key then u :: ofStream key (u.heldAfter held) later
    else ofStream key (u.heldAfter held) later

def draw? : Use α → Option (Generator → α × Generator)
  | .ask _ _ _ => none
  | .draw _ f => some f

end Use

def Generator.results {α : Type} (g : Generator) : List (Generator → α × Generator) → List α
  | [] => []
  | f :: later => (f g).1 :: (f g).2.results later

/-- Streams in use. What a number holds is the generator of a stream itself, so that all numbers which hold the same
stream draw from one generator. -/
structure Session where
  streams : Streams
  held : Held

namespace Session

variable {α : Type}

def start (seed : Int) (run : String) : Session := ⟨.start seed run, []⟩

/-- What is drawn in one use, and the session that is left. A stream that was asked for has its generator from then
on. Nothing is drawn from a number that holds nothing. -/
def use (s : Session) (u : Use α) : Option (StreamKey × α) × Session :=
  match u with
  | .ask holder name parts =>
    let key := StreamKey.ofParts name parts
    (none, ⟨s.streams.put key (s.streams.generator key), s.held.set holder key⟩)
  | .draw holder f =>
    match s.held.get? holder with
    | none => (none, s)
    | some key => (some (key, (s.streams.draw key f).1), ⟨(s.streams.draw key f).2, s.held⟩)

def drawn (s : Session) : List (Use α) → List (StreamKey × α)
  | [] => []
  | u :: later => (s.use u).1.toList ++ (s.use u).2.drawn later

end Session

theorem wordOf_eq_of_modEq {m n : Int} (h : m ≡ n [ZMOD 4294967296]) : wordOf m = wordOf n := by
  have hmod : m % (wordCount : Int) = n % (wordCount : Int) := h
  rw [wordOf, hmod, wordOf]

namespace Streams

theorem generator_put (s : Streams) (key other : StreamKey) (g : Generator) :
    (s.put key g).generator other = if key = other then g else s.generator other := by
  have hfresh : (s.put key g).fresh other = s.fresh other := rfl
  unfold generator
  rw [hfresh, put, Table.get?_set]
  split <;> rfl

theorem put_generator (s : Streams) (key other : StreamKey) :
    (s.put key (s.generator key)).generator other = s.generator other := by
  rw [generator_put]
  split
  case isTrue h => rw [h]
  case isFalse => rfl

end Streams

namespace Session

variable {α : Type} {key : StreamKey} {s t : Session} {u : Use α}

@[simp] theorem held_use (s : Session) (u : Use α) : (s.use u).2.held = u.heldAfter s.held := by
  cases u with
  | ask holder name parts => rfl
  | draw holder f =>
    simp only [use, Use.heldAfter]
    split <;> rfl

/-- The generators of one stream are at the same state, and who holds it in the first session holds it in the
second one. What other streams there are makes no difference. -/
structure Agree (key : StreamKey) (s t : Session) : Prop where
  generator : s.streams.generator key = t.streams.generator key
  held : ∀ holder, s.held.get? holder = some key → t.held.get? holder = some key

theorem Agree.refl (s : Session) : Agree key s s := ⟨rfl, fun _ => id⟩

theorem Agree.start {seed other : Int} (h : seed ≡ other [ZMOD 4294967296]) (run : String) (key : StreamKey) :
    Agree key (.start seed run) (.start other run) where
  generator := by simp only [Session.start, Streams.start, wordOf_eq_of_modEq h]
  held := fun _ hheld => hheld

theorem stream?_of_drawn {d : StreamKey × α} (h : (s.use u).1 = some d) : u.stream? s.held = some d.1 := by
  cases u with
  | ask holder name parts => cases h
  | draw holder f =>
    rw [Use.stream?]
    cases hheld : s.held.get? holder with
    | none => simp [use, hheld] at h
    | some k =>
      simp only [use, hheld, Option.some.injEq] at h
      rw [← h]

theorem Agree.use (h : Agree key s t) (hu : u.stream? s.held = some key) :
    (s.use u).1 = (t.use u).1 ∧ Agree key (s.use u).2 (t.use u).2 := by
  cases u with
  | ask holder name parts =>
    obtain rfl : StreamKey.ofParts name parts = key := Option.some.inj hu
    refine ⟨rfl, ?_, fun other hother => ?_⟩
    · simpa only [Session.use, Streams.put_generator] using h.generator
    · rw [held_use, Use.heldAfter, Table.get?_set] at hother ⊢
      split
      case isTrue => rfl
      case isFalse hne => exact h.held other (by rwa [if_neg hne] at hother)
  | draw holder f =>
    have hs : s.held.get? holder = some key := hu
    have ht := h.held holder hs
    simp only [Session.use, hs, ht, Streams.draw, h.generator, true_and]
    exact ⟨by simp only [Streams.generator_put, if_true], h.held⟩

theorem Agree.skip (h : Agree key s t) (hu : u.stream? s.held ≠ some key) : Agree key (s.use u).2 t := by
  cases u with
  | ask holder name parts =>
    have hother : StreamKey.ofParts name parts ≠ key := fun heq => hu (congrArg some heq)
    refine ⟨?_, fun other hheld => ?_⟩
    · simpa only [Session.use, Streams.put_generator] using h.generator
    · rw [held_use, Use.heldAfter, Table.get?_set] at hheld
      split at hheld
      case isTrue => exact absurd (Option.some.inj hheld) hother
      case isFalse => exact h.held other hheld
  | draw holder f =>
    cases hheld : s.held.get? holder with
    | none => simpa only [Session.use, hheld] using h
    | some k =>
      have hne : k ≠ key := fun heq => hu (by rw [Use.stream?, hheld, heq])
      simp only [Session.use, hheld, Streams.draw]
      exact ⟨by rw [Streams.generator_put, if_neg hne, h.generator], h.held⟩

theorem filter_drawn_of_ne (h : u.stream? s.held ≠ some key) :
    (s.use u).1.toList.filter (fun d => d.1 = key) = [] := by
  refine List.filter_eq_nil_iff.mpr fun d hd hkey => h ?_
  rw [stream?_of_drawn (Option.mem_toList.mp hd), of_decide_eq_true hkey]

theorem drawn_of_agree (h : Agree key s t) (uses : List (Use α)) :
    (s.drawn uses).filter (fun d => d.1 = key) = t.drawn (Use.ofStream key s.held uses) := by
  induction uses generalizing s t with
  | nil => rfl
  | cons u later ih =>
    rw [drawn, List.filter_append, Use.ofStream]
    by_cases hu : u.stream? s.held = some key
    · obtain ⟨hdrawn, hagree⟩ := h.use hu
      have hown : (s.use u).1.toList.filter (fun d => d.1 = key) = (s.use u).1.toList := by
        refine List.filter_eq_self.mpr fun d hd => decide_eq_true ?_
        have hstream := stream?_of_drawn (Option.mem_toList.mp hd)
        exact Option.some.inj (hstream.symm.trans hu)
      rw [if_pos hu, drawn, hown, ih hagree, held_use, hdrawn]
    · rw [if_neg hu, filter_drawn_of_ne hu, List.nil_append, ih (h.skip hu), held_use]

/-- A stream has one generator, which goes on from draw to draw. -/
theorem drawn_eq_results (s : Session) (key : StreamKey) (uses : List (Use α)) :
    ((s.drawn uses).filter (fun d => d.1 = key)).map (·.2) =
      (s.streams.generator key).results ((Use.ofStream key s.held uses).filterMap Use.draw?) := by
  induction uses generalizing s with
  | nil => rfl
  | cons u later ih =>
    rw [drawn, List.filter_append, List.map_append, ih, held_use, Use.ofStream]
    by_cases hu : u.stream? s.held = some key
    · rw [if_pos hu]
      cases u with
      | ask holder name parts =>
        simp only [use, Option.toList_none, List.filter_nil, List.map_nil, List.nil_append,
          Streams.put_generator, List.filterMap_cons, Use.draw?]
      | draw holder f =>
        have hheld : s.held.get? holder = some key := hu
        simp only [use, hheld, Streams.draw, Streams.generator_put, if_true, Option.toList_some,
          List.filter_cons, decide_true, List.filter_nil, List.map_cons, List.map_nil, List.cons_append,
          List.nil_append, List.filterMap_cons, Use.draw?, Generator.results]
    · have hsame := (Agree.skip (.refl s) hu).generator
      rw [if_neg hu, filter_drawn_of_ne hu, hsame, List.map_nil, List.nil_append]

/-- Whatever else is asked for and drawn in between, one stream gives what it gives where nothing but itself is
asked for and drawn from, in a run of the same name whose seed is the same modulo 2 ^ 32. What it gives is what a
generator gives draw after draw that starts from the seed, the run and the name and parts of the stream. -/
theorem drawn_from_one_stream {seed other : Int} (h : seed ≡ other [ZMOD 4294967296]) (run : String)
    (key : StreamKey) (uses : List (Use α)) :
    ((start seed run).drawn uses).filter (fun d => d.1 = key) =
        (start other run).drawn (Use.ofStream key [] uses) ∧
      (((start seed run).drawn uses).filter (fun d => d.1 = key)).map (·.2) =
        (Generator.ofEntropy (wordOf seed :: checksum run :: key.parts)).results
          ((Use.ofStream key [] uses).filterMap Use.draw?) :=
  ⟨drawn_of_agree (.start h run key) uses, drawn_eq_results (start seed run) key uses⟩

/-- Two substreams in turns. The number of the first one comes to hold the second one, and the first one is asked
for again by a part that is the same modulo 2 ^ 32. -/
def turns : List (Use (BitVec 64)) :=
  [.ask 0 "s" [.int 17], .ask 1 "s" [.int 42], .draw 1 Generator.next64, .draw 0 Generator.next64,
    .ask 0 "s" [.int 42], .draw 0 Generator.next64, .ask 1 "s" [.int 4294967313], .draw 1 Generator.next64]

theorem drawn_from_one_of_two :
    (7 : Int) ≡ 4294967303 [ZMOD 4294967296] ∧
      ((start 7 "A").drawn turns).filter (fun d => d.1 = .ofParts "s" [.int 17]) =
        (start 4294967303 "A").drawn [.ask 0 "s" [.int 17], .draw 0 Generator.next64,
          .ask 1 "s" [.int 4294967313], .draw 1 Generator.next64] ∧
      (((start 7 "A").drawn turns).filter (fun d => d.1 = .ofParts "s" [.int 17])).map (·.2) =
        (Generator.ofEntropy [7, checksum "A", checksum "s", 17]).results
          [Generator.next64, Generator.next64] := by
  have hseed : (7 : Int) ≡ 4294967303 [ZMOD 4294967296] := by decide
  have hother : StreamKey.ofParts "s" [.int 42] ≠ .ofParts "s" [.int 17] := by
    simp only [StreamKey.ofParts, ne_eq, StreamKey.mk.injEq, List.map_cons, List.cons.injEq]
    decide +kernel
  have hagain : StreamKey.ofParts "s" [.int 4294967313] = .ofParts "s" [.int 17] := rfl
  have hown : Use.ofStream (.ofParts "s" [.int 17]) [] turns =
      [.ask 0 "s" [.int 17], .draw 0 Generator.next64, .ask 1 "s" [.int 4294967313],
        .draw 1 Generator.next64] := by
    simp [turns, Use.ofStream, Use.stream?, Use.heldAfter, Table.get?_set, hother, hagain]
  have hdrawn := drawn_from_one_stream hseed "A" (.ofParts "s" [.int 17]) turns
  rw [hown] at hdrawn
  exact ⟨hseed, hdrawn⟩

end Session

end RoadNames.Random
