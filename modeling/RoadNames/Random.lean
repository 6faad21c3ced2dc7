import RoadNames.Json.Value
set_option autoImplicit false

/-!
Named random streams. Every stream has a generator of its own, made when the stream is first drawn
from, so that draws from one stream leave all others as they are.
-/

namespace RoadNames.Random

def wordCount : Nat := 0x100000000

/-- A hash whose multiplier changes with every use. -/
structure Hasher where
  multiplier : UInt32

def foldHigh (v : UInt32) : UInt32 := v ^^^ (v >>> 16)

def Hasher.hash (h : Hasher) (factor v : UInt32) : UInt32 × Hasher :=
  let next := h.multiplier * factor
  (foldHigh ((v ^^^ h.multiplier) * next), ⟨next⟩)

def poolFactor : UInt32 := 0x931E8875

def outputFactor : UInt32 := 0x58F38DED

def mix (x y : UInt32) : UInt32 := foldHigh (0xCA01F9DD * x - 0x4973F715 * y)

structure Pool where
  words : List UInt32
  hasher : Hasher

def poolSize : Nat := 4

/-- The first words of entropy, hashed one after the other; zeros where there are too few. -/
def Pool.start (entropy : List UInt32) : Pool :=
  (List.range poolSize).foldl
    (fun p i =>
      let (v, h) := p.hasher.hash poolFactor (entropy.getD i 0)
      ⟨p.words ++ [v], h⟩)
    ⟨[], ⟨0x43B0D7E5⟩⟩

def Pool.stir (p : Pool) (word : UInt32) (place : Nat) : Pool :=
  let (v, h) := p.hasher.hash poolFactor word
  ⟨p.words.modify place (mix · v), h⟩

def Pool.stirTogether (p : Pool) : Pool :=
  (List.range poolSize).foldl
    (fun p source =>
      ((List.range poolSize).filter (· ≠ source)).foldl
        (fun p place => p.stir (p.words.getD source 0) place) p)
    p

def Pool.absorb (p : Pool) (word : UInt32) : Pool :=
  (List.range poolSize).foldl (fun p place => p.stir word place) p

def Pool.ofEntropy (entropy : List UInt32) : Pool :=
  (entropy.drop poolSize).foldl Pool.absorb (Pool.start entropy).stirTogether

def Pool.draw (p : Pool) (count : Nat) : List UInt32 :=
  ((List.range count).foldl
    (fun (out : List UInt32 × Hasher) i =>
      let (v, h) := out.2.hash outputFactor (p.words.getD (i % poolSize) 0)
      (out.1 ++ [v], h))
    ([], ⟨0x8B51F9DD⟩)).1

/-- A linear congruential state, whose halves are folded and rotated into 64 bits of output. -/
structure Generator where
  state : BitVec 128
  increment : BitVec 128
  /-- The high half of the last output, kept for the next draw of 32 bits. -/
  spare : Option UInt32
  deriving DecidableEq, Repr

namespace Generator

def multiplier : BitVec 128 := 47026247687942121848144207491837523525#128

def step (g : Generator) : Generator :=
  { g with state := g.state * multiplier + g.increment }

/-- Four words of 32 bits, low halves first, make two words of 64 bits, high one first. -/
def wide : List UInt32 → BitVec 128
  | [a, b, c, d] =>
    (BitVec.ofNat 128 b.toNat <<< 96) ||| (BitVec.ofNat 128 a.toNat <<< 64)
      ||| (BitVec.ofNat 128 d.toNat <<< 32) ||| BitVec.ofNat 128 c.toNat
  | _ => 0#128

def ofEntropy (entropy : List UInt32) : Generator :=
  let words := (Pool.ofEntropy entropy).draw 8
  let seed := wide (words.take 4)
  let zero : Generator := ⟨0#128, (wide (words.drop 4) <<< 1) ||| 1#128, none⟩
  let first := zero.step
  step { first with state := first.state + seed }

def output (state : BitVec 128) : BitVec 64 :=
  let folded := (state >>> 64).setWidth 64 ^^^ state.setWidth 64
  folded.rotateRight (state >>> 122).toNat

def next64 (g : Generator) : BitVec 64 × Generator :=
  let g := g.step
  (output g.state, g)

def next32 (g : Generator) : UInt32 × Generator :=
  match g.spare with
  | some v => (v, { g with spare := none })
  | none =>
    let (v, g) := g.next64
    (UInt32.ofNat v.toNat, { g with spare := some (UInt32.ofNat (v.toNat / wordCount)) })

def take : Nat → Generator → List (BitVec 64) × Generator
  | 0, g => ([], g)
  | n + 1, g =>
    let (v, g) := g.next64
    let (vs, g) := take n g
    (v :: vs, g)

/-- A draw is refused with probability below one half, so that this many in a row never are. -/
def maxRefusals : Nat := 256

/-- A draw of 32 bits scaled to `0, …, size - 1`, drawn again while it falls in the part that would
make some results likelier than others. -/
def scaled (size : Nat) : Nat → Generator → Nat × Generator
  | 0, g =>
    let (v, g) := g.next32
    (v.toNat * size / wordCount, g)
  | tries + 1, g =>
    let (v, g) := g.next32
    let product := v.toNat * size
    if product % wordCount < (wordCount - size) % size then scaled size tries g
    else (product / wordCount, g)

def upTo (bound : Nat) (g : Generator) : Nat × Generator :=
  if bound = 0 then (0, g) else scaled (bound + 1) maxRefusals g

end Generator

namespace Choice

/-- Exchanges the element at each place, from `last` down to `first`, with one at or below that place. -/
def shuffleDown (first : Nat) : Nat → Array Nat → Generator → Array Nat × Generator
  | 0, a, g => (a, g)
  | last + 1, a, g =>
    if last < first then (a, g)
    else
      let (j, g) := g.upTo last
      shuffleDown first last (a.swapIfInBounds last j) g

/-- One number for each place from the next one up to the end: drawn at or below the place, or the
place itself if that was taken before. -/
def pick : Nat → Nat → List Nat → Generator → List Nat × Generator
  | 0, _, taken, g => (taken.reverse, g)
  | count + 1, place, taken, g =>
    let (v, g) := g.upTo place
    pick count (place + 1) ((if taken.contains v then place else v) :: taken) g

/-- Above this size all numbers are shuffled, if more than a fiftieth of them is wanted. -/
def shuffleAbove : Nat := 10000

def distinct (size count : Nat) (g : Generator) : List Nat × Generator :=
  if size > shuffleAbove ∧ count > size / 50 then
    let (a, g) := shuffleDown (max (size - count) 1) size (Array.range size) g
    (a.toList.drop (size - count), g)
  else
    let (chosen, g) := pick count (size - count) [] g
    let (a, g) := shuffleDown 1 count chosen.toArray g
    (a.toList, g)

end Choice

inductive SampleError where
  | undefined
  | infinite
  /-- More elements would be needed than there are. -/
  | tooLarge
  deriving DecidableEq, Repr

def SampleError.message : SampleError → String
  | .undefined => "cannot convert float NaN to integer"
  | .infinite => "cannot convert float infinity to integer"
  | .tooLarge => "Cannot take a larger sample than population when replace is False"

/-- The fraction of the length, rounded to the nearest integer, but at least one. -/
def sampleSize (length : Nat) (fraction : Float) : Except SampleError Nat :=
  let share := Decimal.floatOfInt length * fraction
  match Decimal.roundInt? share with
  | some n => .ok (max 1 n.toNat)
  | none => .error (if share.isNaN then .undefined else .infinite)

def pickPlaces {α : Type} (xs : List α) (places : List Nat) : List α :=
  let a := xs.toArray
  (places.mergeSort (· ≤ ·)).filterMap fun i => a[i]?

abbrev Chooser := Nat → Nat → Generator → List Nat × Generator

def sampleBy {α : Type} (choose : Chooser) (xs : List α) (fraction : Float) (g : Generator) :
    Except SampleError (List α × Generator) :=
  if fraction ≥ 1.0 || xs.isEmpty then .ok (xs, g)
  else
    match sampleSize xs.length fraction with
    | .error e => .error e
    | .ok count =>
      if count > xs.length then .error .tooLarge
      else
        let (places, g) := choose xs.length count g
        .ok (pickPlaces xs places, g)

def sample {α : Type} (xs : List α) (fraction : Float) (g : Generator) :
    Except SampleError (List α × Generator) :=
  sampleBy Choice.distinct xs fraction g

def checksumPolynomial : UInt32 := 0xEDB88320

def shiftBits : Nat → UInt32 → UInt32
  | 0, crc => crc
  | n + 1, crc =>
    shiftBits n (if crc &&& 1 = 1 then (crc >>> 1) ^^^ checksumPolynomial else crc >>> 1)

def checksumBytes (bytes : List UInt8) : UInt32 :=
  bytes.foldl (fun crc b => shiftBits 8 (crc ^^^ b.toUInt32)) 0xFFFFFFFF ^^^ 0xFFFFFFFF

/-- The cyclic redundancy check of the bytes of a text in UTF-8. -/
def checksum (text : String) : UInt32 := checksumBytes text.toUTF8.toList

def wordOf (n : Int) : UInt32 := UInt32.ofNat (n % wordCount).toNat

/-- A stream by its name and, normalised to words, the name again and the parts of a substream. -/
structure StreamKey where
  name : String
  parts : List UInt32
  deriving DecidableEq, Repr

namespace StreamKey

/-- Integers count modulo 2 ^ 32, all else by the checksum of its text. -/
def part : Json → UInt32
  | .int n => wordOf n
  | .bool b => if b then 1 else 0
  | .str s => checksum s
  | v => checksum v.shown

def ofParts (name : String) (parts : List Json) : StreamKey :=
  ⟨name, checksum name :: parts.map part⟩

end StreamKey

structure Streams where
  master : UInt32
  run : UInt32
  generators : Table StreamKey Generator

namespace Streams

def start (seed : Int) (run : String) : Streams := ⟨wordOf seed, checksum run, []⟩

def fresh (s : Streams) (key : StreamKey) : Generator :=
  Generator.ofEntropy (s.master :: s.run :: key.parts)

def generator (s : Streams) (key : StreamKey) : Generator :=
  (s.generators.get? key).getD (s.fresh key)

def put (s : Streams) (key : StreamKey) (g : Generator) : Streams :=
  { s with generators := s.generators.set key g }

def draw {α : Type} (s : Streams) (key : StreamKey) (f : Generator → α × Generator) : α × Streams :=
  let (a, g) := f (s.generator key)
  (a, s.put key g)

end Streams

end RoadNames.Random
