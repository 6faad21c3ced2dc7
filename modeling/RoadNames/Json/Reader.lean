import RoadNames.Json.Value
set_option autoImplicit false

/-!
Reading documents: JSON, and besides it the words NaN, Infinity and -Infinity. Of fields with one key
the last counts, at the place of the first. A number with a point or an exponent is a double, any
other an integer, which is refused if it is too long.
-/

namespace RoadNames.Json

open RoadNames.Decimal

/-- Why a text is not read. Whatever comes first in the text counts. -/
inductive ReadError where
  | malformed
  | longInteger (digits : Nat)
  deriving DecidableEq, Repr

def isSpace (c : Char) : Bool := c = ' ' || c = '\t' || c = '\n' || c = '\r'

def skipSpaces (s : List Char) : List Char := s.dropWhile isSpace

def hexValue? (c : Char) : Option Nat :=
  let n := c.toNat
  if 48 ≤ n ∧ n ≤ 57 then some (n - 48)
  else if 97 ≤ n ∧ n ≤ 102 then some (n - 87)
  else if 65 ≤ n ∧ n ≤ 70 then some (n - 55)
  else none

def hexFour? (a b c d : Char) : Option Nat := do
  some (((← hexValue? a) * 16 + (← hexValue? b)) * 256 + (← hexValue? c) * 16 + (← hexValue? d))

def unescape? (c : Char) : Option Char :=
  if c = '"' || c = '\\' || c = '/' then some c
  else if c = 'n' then some '\n'
  else if c = 'r' then some '\r'
  else if c = 't' then some '\t'
  else if c = 'b' then some (Char.ofNat 8)
  else if c = 'f' then some (Char.ofNat 12)
  else none

/-- Half of a pair of units stands for no character of its own. -/
def replacement : Char := Char.ofNat 0xFFFD

/-- The character of a unit, and what follows. Two halves of a pair make one character. -/
def readUnit (unit : Nat) (s : List Char) : Char × List Char :=
  if 0xD800 ≤ unit ∧ unit < 0xDC00 then
    match s with
    | '\\' :: 'u' :: a :: b :: c :: d :: rest =>
      match hexFour? a b c d with
      | some low =>
        if 0xDC00 ≤ low ∧ low < 0xE000 then
          (Char.ofNat (0x10000 + (unit - 0xD800) * 0x400 + (low - 0xDC00)), rest)
        else (replacement, s)
      | none => (replacement, s)
    | _ => (replacement, s)
  else if 0xDC00 ≤ unit ∧ unit < 0xE000 then (replacement, s)
  else (Char.ofNat unit, s)

def readString : Nat → List Char → List Char → Option (String × List Char)
  | 0, _, _ => none
  | fuel + 1, done, s =>
    match s with
    | [] => none
    | '"' :: rest => some (String.ofList done.reverse, rest)
    | '\\' :: 'u' :: a :: b :: c :: d :: rest => do
      let (char, rest) := readUnit (← hexFour? a b c d) rest
      readString fuel (char :: done) rest
    | '\\' :: c :: rest => do readString fuel ((← unescape? c) :: done) rest
    | c :: rest => if c.toNat < 32 then none else readString fuel (c :: done) rest

/-- A whole number has no zero before other digits. -/
def readDigits? (s : List Char) : Option (List Char × List Char) :=
  match s with
  | '0' :: rest => some (['0'], rest)
  | _ =>
    let ds := s.takeWhile isPlainDigit
    if ds = [] then none else some (ds, s.dropWhile isPlainDigit)

def readFraction (s : List Char) : List Char × List Char :=
  match s with
  | '.' :: rest =>
    let ds := rest.takeWhile isPlainDigit
    if ds = [] then ([], s) else (ds, rest.dropWhile isPlainDigit)
  | _ => ([], s)

def readExponent (s : List Char) : Option Int × List Char :=
  match s with
  | e :: rest =>
    if e = 'e' || e = 'E' then
      let (negative, body) := sign rest
      let ds := body.takeWhile isPlainDigit
      if ds = [] then (none, s)
      else (some (negateInt negative (natOf 0 ds)), body.dropWhile isPlainDigit)
    else (none, s)
  | [] => (none, s)

def readNumber (negative : Bool) (s : List Char) : Except ReadError (Json × List Char) :=
  match readDigits? s with
  | none => .error .malformed
  | some (whole, rest) =>
    let (fraction, rest) := readFraction rest
    let (exponent, rest) := readExponent rest
    if fraction = [] && exponent = none then
      if whole.length ≤ digitLimit then .ok (int (negateInt negative (natOf 0 whole)), rest)
      else .error (.longInteger whole.length)
    else
      let ds := whole ++ fraction
      let x := nearestFloat (natOf 0 ds) ds.length (exponent.getD 0 - fraction.length)
      .ok (float (if negative then -x else x), rest)

def after? : List Char → List Char → Option (List Char)
  | [], s => some s
  | _ :: _, [] => none
  | w :: word, c :: s => if w = c then after? word s else none

def constants : List (List Char × Json) :=
  [("null".toList, null), ("true".toList, bool true), ("false".toList, bool false),
   ("NaN".toList, float (0 / 0)), ("Infinity".toList, float (1 / 0)),
   ("-Infinity".toList, float (-1 / 0))]

def readConstant? (s : List Char) : Option (Json × List Char) :=
  constants.findSome? fun (word, value) => (after? word s).map fun rest => (value, rest)

def readScalar (s : List Char) : Except ReadError (Json × List Char) :=
  match readConstant? s with
  | some read => .ok read
  | none =>
    match s with
    | '-' :: rest => readNumber true rest
    | _ => readNumber false s

mutual

/-- A value at the start of the text. Every call uses one unit of fuel, and of two calls inside each
other one consumes a character, so fuel for twice the characters suffices. -/
def readValue : Nat → List Char → Except ReadError (Json × List Char)
  | 0, _ => .error .malformed
  | fuel + 1, s =>
    match s with
    | '"' :: rest =>
      match readString fuel [] rest with
      | none => .error .malformed
      | some (t, rest) => .ok (str t, rest)
    | '[' :: rest =>
      match skipSpaces rest with
      | ']' :: rest => .ok (arr [], rest)
      | rest => readItems fuel [] rest
    | '\x7b' :: rest =>
      match skipSpaces rest with
      | '\x7d' :: rest => .ok (obj [], rest)
      | rest => readFields fuel [] rest
    | _ => readScalar s

def readItems : Nat → List Json → List Char → Except ReadError (Json × List Char)
  | 0, _, _ => .error .malformed
  | fuel + 1, done, s =>
    match readValue fuel s with
    | .error e => .error e
    | .ok (v, rest) =>
      match skipSpaces rest with
      | ',' :: rest => readItems fuel (v :: done) (skipSpaces rest)
      | ']' :: rest => .ok (arr (v :: done).reverse, rest)
      | _ => .error .malformed

def readFields : Nat → List (String × Json) → List Char → Except ReadError (Json × List Char)
  | 0, _, _ => .error .malformed
  | fuel + 1, done, s =>
    match s with
    | '"' :: rest =>
      match readString fuel [] rest with
      | none => .error .malformed
      | some (key, rest) =>
        match skipSpaces rest with
        | ':' :: rest =>
          match readValue fuel (skipSpaces rest) with
          | .error e => .error e
          | .ok (v, rest) =>
            match skipSpaces rest with
            | ',' :: rest => readFields fuel ((key, v) :: done) (skipSpaces rest)
            | '\x7d' :: rest => .ok (obj (Table.setAll [] ((key, v) :: done).reverse), rest)
            | _ => .error .malformed
        | _ => .error .malformed
    | _ => .error .malformed

end

def read (s : List Char) : Except ReadError Json :=
  match readValue (2 * s.length + 2) (skipSpaces s) with
  | .error e => .error e
  | .ok (v, rest) => if skipSpaces rest = [] then .ok v else .error .malformed

def parse? (s : List Char) : Option Json := (read s).toOption

end RoadNames.Json
