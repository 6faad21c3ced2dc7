import RoadNames.Text
set_option autoImplicit false

/-!
Doubles as exact numbers, and numbers as texts. A double is rounded by its exact value, one half-way between two
candidates to the even one. It is written with the fewest digits that read back: positionally, with a digit on both
sides of the point, if the first digit stands for a power of ten from -4 to 15; else with one digit before the point
and a signed exponent of two digits or more.
-/

namespace RoadNames.Decimal

/-- `2 ^ e`, and one if `e` is negative. -/
def twoPow (e : Int) : Nat := Nat.pow 2 e.toNat

def tenPow (e : Int) : Nat := Nat.pow 10 e.toNat

def fullSignificand : Nat := 0x10000000000000

def exponentBits (x : Float) : Nat := x.toBits.toNat / fullSignificand % 0x800

def specialExponent : Nat := 0x7FF

/-- The number `± significand * 2 ^ exponent`. -/
structure Binary where
  negative : Bool
  significand : Nat
  exponent : Int
  /-- The next smaller magnitude is only half as far away as the next greater one. -/
  closerBelow : Bool
  deriving DecidableEq, Repr

def signBit : Nat := 0x8000000000000000

/-- The exact value of a double; infinities and NaN have none. -/
def binary? (x : Float) : Option Binary :=
  let field := exponentBits x
  let fraction := x.toBits.toNat % fullSignificand
  let negative := decide (signBit ≤ x.toBits.toNat)
  if field = specialExponent then none
  else if field = 0 then some ⟨negative, fraction, -1074, false⟩
  else some ⟨negative, fullSignificand + fraction, (field : Int) - 1075, fraction == 0 && field > 1⟩

def isFinite (x : Float) : Bool := exponentBits x ≠ specialExponent

theorem isFinite_iff_binary? (x : Float) : isFinite x = true ↔ (binary? x).isSome = true := by
  unfold isFinite binary?
  dsimp only
  split
  case isTrue h => exact iff_of_false (fun hf => of_decide_eq_true hf h) Bool.false_ne_true
  case isFalse h =>
    have hf : decide (exponentBits x ≠ specialExponent) = true := decide_eq_true h
    split
    · exact iff_of_true hf rfl
    · exact iff_of_true hf rfl

/-- The bits of a double, the two zeros having the same. Finite doubles are equal just when these are. -/
def equalityKey (x : Float) : UInt64 := if x.toBits = 0x8000000000000000 then 0 else x.toBits

def magnitudeKey (x : Float) : Nat := x.toBits.toNat % signBit

/-- `num / den`, rounded to the nearest integer, a half to the even neighbour. -/
def divRound (num den : Nat) : Nat :=
  let quotient := num / den
  let twice := 2 * (num % den)
  if twice < den then quotient
  else if den < twice then quotient + 1
  else if quotient % 2 = 0 then quotient else quotient + 1

theorem divRound_near (num den : Nat) (h : 0 < den) :
    2 * (divRound num den * den) ≤ 2 * num + den ∧ 2 * num ≤ 2 * (divRound num den * den) + den := by
  have e : den * (num / den) + num % den = num := Nat.div_add_mod num den
  have l : num % den < den := Nat.mod_lt _ h
  simp only [divRound]
  generalize num / den = q at *
  generalize num % den = r at *
  have hq : (q + 1) * den = den * q + den := by rw [Nat.add_mul, Nat.mul_comm]; simp
  have hq0 : q * den = den * q := Nat.mul_comm ..
  generalize den * q = p at *
  split
  · omega
  · split
    · omega
    · split <;> omega

def Binary.scaled (b : Binary) (places : Int) : Nat :=
  divRound (b.significand * twoPow b.exponent * tenPow places)
    (twoPow (-b.exponent) * tenPow (-places))

def negateIf (negative : Bool) (x : Float) : Float := if negative then -x else x

/-- Beyond this many places a double is not changed, and as far before the point it is rounded to zero. -/
def extremePlaces : Int := 400

/-- The double nearest to the value of `x` rounded to `places` decimal places. The sign stays, also on zero. -/
def roundPlaces (x : Float) (places : Int) : Float :=
  match binary? x with
  | none => x
  | some b =>
    if places > extremePlaces then x
    else if places < -extremePlaces then negateIf b.negative 0
    else negateIf b.negative (Float.ofScientific (b.scaled places) (places > 0) places.natAbs)

def roundInt? (x : Float) : Option Int :=
  (binary? x).map fun b => if b.negative then -(b.scaled 0 : Int) else b.scaled 0

def truncate? (x : Float) : Option Int :=
  (binary? x).map fun b =>
    let n := b.significand * twoPow b.exponent / twoPow (-b.exponent)
    if b.negative then -(n : Int) else n

def isIntegral (x : Float) : Bool :=
  match binary? x with
  | none => false
  | some b => b.significand * twoPow b.exponent % twoPow (-b.exponent) == 0

structure Digits where
  digits : Nat
  exponent : Int
  deriving DecidableEq, Repr

def compareScaled (a : Nat) (i : Int) (n : Nat) (j : Int) : Ordering :=
  compare (a * tenPow i * twoPow (-j)) (n * twoPow j * tenPow (-i))

/-- Whether `d` rounds to the magnitude of `b`: it lies between the midpoints to the two neighbours,
which themselves round to an even significand. -/
def Binary.readsBack (b : Binary) (d : Digits) : Bool :=
  let low := compareScaled d.digits d.exponent
    (4 * b.significand - if b.closerBelow then 1 else 2) (b.exponent - 2)
  let high := compareScaled d.digits d.exponent (4 * b.significand + 2) (b.exponent - 2)
  let even := b.significand % 2 == 0
  (low == .gt || even && low == .eq) && (high == .lt || even && high == .eq)

/-- The number of digits before the point of a positive magnitude, negative for zeros after it: the
least `k` with `b < 10 ^ k`, found near the estimate that its binary length gives. -/
def Binary.scale (b : Binary) : Int :=
  let estimate := ((b.significand.log2 : Int) + b.exponent) * 30103 / 100000
  ([-1, 0, 1, 2].find? fun step : Int =>
    compareScaled 1 (estimate + step) b.significand b.exponent == .gt).elim
      (estimate + 3) (estimate + ·)

def Binary.below (b : Binary) (exponent : Int) : Nat :=
  b.significand * twoPow b.exponent * tenPow (-exponent) / (twoPow (-b.exponent) * tenPow exponent)

def Binary.nearer (b : Binary) (n : Nat) (exponent : Int) : Nat :=
  match compareScaled (2 * n + 1) exponent (2 * b.significand) b.exponent with
  | .gt => n
  | .lt => n + 1
  | .eq => if n % 2 = 0 then n else n + 1

/-- The multiple of `10 ^ exponent` that reads back as `b`, if one of the two nearest does. -/
def Binary.onGrid? (b : Binary) (exponent : Int) : Option Digits :=
  let n := b.below exponent
  let lower : Digits := ⟨n, exponent⟩
  let upper : Digits := ⟨n + 1, exponent⟩
  match b.readsBack lower, b.readsBack upper with
  | true, true => some ⟨b.nearer n exponent, exponent⟩
  | true, false => some lower
  | false, true => some upper
  | false, false => none

/-- Seventeen digits tell any two doubles apart. -/
def maxDigits : Nat := 17

def Binary.shortest (b : Binary) : Digits :=
  let scale := b.scale
  ((List.range maxDigits).findSome? fun i => b.onGrid? (scale - (i + 1 : Nat))).getD
    ⟨b.nearer (b.below (scale - maxDigits)) (scale - maxDigits), scale - maxDigits⟩

open RoadNames.Text

abbrev DigitSet := Char → Option Nat

def asciiDigit? : DigitSet := fun c => if '0' ≤ c ∧ c ≤ '9' then some (c.toNat - 48) else none

def plainDigits (digit? : DigitSet) (s : List Char) : List Char :=
  s.map fun c => ((digit? c).map digitChar).getD c

def isPlainDigit (c : Char) : Bool := '0' ≤ c && c ≤ '9'

/-- The text without its underscores, each of which must stand between two digits. -/
def joinGroups (before : Char) : List Char → Option (List Char)
  | [] => if before = '_' then none else some []
  | c :: rest =>
    if c = '_' then if isPlainDigit before then joinGroups '_' rest else none
    else if before = '_' && !isPlainDigit c then none
    else (joinGroups c rest).map (c :: ·)

def natOf (before : Nat) (ds : List Char) : Nat := ds.foldl (fun n c => 10 * n + (c.toNat - 48)) before

def sign : List Char → Bool × List Char
  | '-' :: rest => (true, rest)
  | '+' :: rest => (false, rest)
  | s => (false, s)

/-- Integers with more digits are neither read nor written. -/
def digitLimit : Nat := 4300

def negateInt (negative : Bool) (n : Nat) : Int := if negative then -(n : Int) else n

def normalize? (digit? : DigitSet) (s : List Char) : Option (List Char) :=
  joinGroups ' ' (plainDigits digit? (trim s))

def readInt? (digit? : DigitSet) (s : List Char) : Option Int := do
  let (negative, ds) := sign (← normalize? digit? s)
  if ds ≠ [] && ds.all isPlainDigit && ds.length ≤ digitLimit then some (negateInt negative (natOf 0 ds)) else none

/-- Doubles reach up to `10 ^ 308` and down to `10 ^ -324`; from here on they are infinite or zero. -/
def extremeExponent : Int := 400

/-- The double nearest to `digits * 10 ^ exponent`. `length` bounds the number of digits. -/
def nearestFloat (digits length : Nat) (exponent : Int) : Float :=
  if digits = 0 then 0
  else if exponent + length < -extremeExponent then 0
  else if exponent > extremeExponent then Float.ofScientific 1 false extremeExponent.toNat
  else Float.ofScientific digits (exponent < 0) exponent.natAbs

def floatOfInt (n : Int) : Float :=
  let x := Float.ofScientific n.natAbs false 0
  if n < 0 then -x else x

def readMagnitude? (s : List Char) : Option Float :=
  let whole := s.takeWhile isPlainDigit
  let rest := s.dropWhile isPlainDigit
  let (fraction, rest) := match rest with
    | '.' :: more => (more.takeWhile isPlainDigit, more.dropWhile isPlainDigit)
    | _ => ([], rest)
  let mantissa := whole ++ fraction
  if mantissa = [] then none
  else
    let value (e : Int) := nearestFloat (natOf 0 mantissa) mantissa.length (e - fraction.length)
    match rest with
    | [] => some (value 0)
    | e :: more =>
      let (negative, ds) := sign more
      if (e = 'e' || e = 'E') && ds ≠ [] && ds.all isPlainDigit then
        some (value (negateInt negative (natOf 0 ds)))
      else none

def infinityWords : List (List Char) := [['i', 'n', 'f'], ['i', 'n', 'f', 'i', 'n', 'i', 't', 'y']]

def undefinedWord : List Char := ['n', 'a', 'n']

def readFloat? (digit? : DigitSet) (s : List Char) : Option Float := do
  let (negative, body) := sign (← normalize? digit? s)
  let word := body.map Char.toLower
  let x ←
    if infinityWords.contains word then some (1 / 0)
    else if word = undefinedWord then some (0 / 0)
    else readMagnitude? body
  some (if negative then -x else x)

structure Special where
  infinity : List Char
  undefined : List Char
  deriving DecidableEq, Repr

def natText (n : Nat) : List Char := Nat.toDigits 10 n

def intText (n : Int) : List Char :=
  if n < 0 then '-' :: natText n.natAbs else natText n.natAbs

def isShort (n : Int) : Bool := (natText n.natAbs).length ≤ digitLimit

def dropZeros (ds : List Char) : List Char × Nat :=
  let kept := (ds.reverse.dropWhile (· = '0')).reverse
  (kept, ds.length - kept.length)

def exponentText (e : Int) : List Char :=
  let ds := natText e.natAbs
  (if e < 0 then '-' else '+') :: (if ds.length < 2 then '0' :: ds else ds)

/-- Writes `0.d₁d₂… * 10 ^ point`, where the digits neither begin nor end with a zero. -/
def layDigits (ds : List Char) (point : Int) : List Char :=
  if -4 < point ∧ point ≤ 16 then
    if point ≤ 0 then '0' :: '.' :: (List.replicate (-point).toNat '0' ++ ds)
    else if ds.length ≤ point.toNat then
      ds ++ List.replicate (point.toNat - ds.length) '0' ++ ['.', '0']
    else ds.take point.toNat ++ '.' :: ds.drop point.toNat
  else
    (match ds with
      | [] => []
      | [d] => [d]
      | d :: rest => d :: '.' :: rest) ++ 'e' :: exponentText (point - 1)

def magnitudeText (b : Binary) : List Char :=
  if b.significand = 0 then ['0', '.', '0']
  else
    let d := b.shortest
    let (ds, zeros) := dropZeros (natText d.digits)
    layDigits ds (d.exponent + zeros + ds.length)

def floatText (special : Special) (x : Float) : List Char :=
  match binary? x with
  | some b => if b.negative then '-' :: magnitudeText b else magnitudeText b
  | none =>
    if x.isNaN then special.undefined
    else if x < 0 then '-' :: special.infinity
    else special.infinity

def plainSpecial : Special := ⟨['i', 'n', 'f'], ['n', 'a', 'n']⟩

def plainFloat (x : Float) : String := String.ofList (floatText plainSpecial x)

end RoadNames.Decimal
