import RoadNames.Decimal
import RoadNames.Table
set_option autoImplicit false

namespace RoadNames

inductive Json where
  | null
  | bool (value : Bool)
  | int (value : Int)
  | float (value : Float)
  | str (text : String)
  | arr (items : List Json)
  | obj (fields : List (String × Json))
  deriving Inhabited

open Decimal Text

namespace Json

abbrev Fields := Table String Json

def isTrue : Json → Bool
  | null => false
  | bool b => b
  | int n => n ≠ 0
  | float x => !(x == 0)
  | str s => s ≠ ""
  | arr items => !items.isEmpty
  | obj fields => !fields.isEmpty

def isNull : Json → Bool
  | null => true
  | _ => false

def field? : Json → String → Option Json
  | obj fields, key => Table.get? fields key
  | _, _ => none

def ofText? : Option String → Json
  | none => null
  | some s => str s

structure Style where
  null : List Char
  yes : List Char
  no : List Char
  special : Special
  quote : List Char → List Char

def escapeChar (c : Char) : List Char :=
  if c = '"' || c = '\\' then ['\\', c]
  else if c = '\n' then ['\\', 'n']
  else if c = '\r' then ['\\', 'r']
  else if c = '\t' then ['\\', 't']
  else if c.toNat = 8 then ['\\', 'b']
  else if c.toNat = 12 then ['\\', 'f']
  else if c.toNat < 32 then '\\' :: 'u' :: hex 4 c.toNat
  else [c]

def quoteString (s : List Char) : List Char := '"' :: s.flatMap escapeChar ++ ['"']

def documentStyle : Style where
  null := "null".toList
  yes := "true".toList
  no := "false".toList
  special := ⟨"Infinity".toList, "NaN".toList⟩
  quote := quoteString

def messageStyle : Style where
  null := "None".toList
  yes := "True".toList
  no := "False".toList
  special := plainSpecial
  quote := quoted

mutual

def write (style : Style) : Json → List Char
  | null => style.null
  | bool true => style.yes
  | bool false => style.no
  | int n => intText n
  | float x => floatText style.special x
  | str s => style.quote s.toList
  | arr items => '[' :: writeItems style items ++ [']']
  | obj fields => '\x7b' :: writeFields style fields ++ ['\x7d']

def writeItems (style : Style) : List Json → List Char
  | [] => []
  | [v] => write style v
  | v :: rest => write style v ++ ',' :: ' ' :: writeItems style rest

def writeFields (style : Style) : List (String × Json) → List Char
  | [] => []
  | [(k, v)] => style.quote k.toList ++ ':' :: ' ' :: write style v
  | (k, v) :: rest =>
    style.quote k.toList ++ ':' :: ' ' :: (write style v ++ ',' :: ' ' :: writeFields style rest)

end

mutual

/-- No integer inside is too long to be written. -/
def isWritable : Json → Bool
  | int n => isShort n
  | arr items => areWritable items
  | obj fields => areWritableFields fields
  | _ => true

def areWritable : List Json → Bool
  | [] => true
  | v :: rest => isWritable v && areWritable rest

def areWritableFields : List (String × Json) → Bool
  | [] => true
  | (_, v) :: rest => isWritable v && areWritableFields rest

end

def document (v : Json) : String := String.ofList (write documentStyle v)

def shown (v : Json) : String := String.ofList (write messageStyle v)

/-- The value as plain text: strings stand without quotes. -/
def plainText : Json → String
  | str s => s
  | v => shown v

end Json

def shownText (s : String) : String := String.ofList (quoted s.toList)

def shownText? (s : Option String) : String := (Json.ofText? s).shown

inductive LookupError where
  | unknown (key : Json)
  /-- Lists and objects cannot be names. -/
  | improper

namespace LookupError

def message (what : String) : LookupError → String
  | unknown key => what ++ " " ++ key.shown
  | improper => "not a name"

end LookupError

namespace Json

def lookUp {α : Type} (find : String → Option α) (key : Json) : Except LookupError α :=
  match key with
  | .str name =>
    match find name with
    | some a => .ok a
    | none => .error (.unknown key)
  | .arr _ | .obj _ => .error .improper
  | _ => .error (.unknown key)

theorem exists_of_lookUp {α : Type} {find : String → Option α} {key : Json} {a : α}
    (h : key.lookUp find = .ok a) : ∃ name, key = .str name ∧ find name = some a := by
  cases key with
  | str name =>
    cases hfind : find name with
    | none => simp [lookUp, hfind] at h
    | some b =>
      obtain rfl : b = a := by simpa [lookUp, hfind] using h
      exact ⟨name, rfl, hfind⟩
  | _ => cases h

inductive CoercionError where
  | wrongType
  | badText (text : String)
  /-- A double that is no number. -/
  | undefined
  /-- An integer that no double reaches, or an infinity where an integer is asked for. -/
  | overflow
  deriving DecidableEq, Repr

def CoercionError.message : CoercionError → String
  | .wrongType => "not a number"
  | .badText text => "could not convert string to float: " ++ shownText text
  | .undefined => "cannot convert float NaN to integer"
  | .overflow => "number too large"

def toInt : Json → Except CoercionError Int
  | int n => .ok n
  | bool b => .ok (if b then 1 else 0)
  | float x =>
    match truncate? x with
    | some n => .ok n
    | none => .error (if x.isNaN then .undefined else .overflow)
  | str s =>
    match readInt? digitValue? s.toList with
    | some n => .ok n
    | none => .error (.badText s)
  | _ => .error .wrongType

def toFloat : Json → Except CoercionError Float
  | int n =>
    let x := floatOfInt n
    if isFinite x then .ok x else .error .overflow
  | bool b => .ok (if b then 1 else 0)
  | float x => .ok x
  | str s =>
    match readFloat? digitValue? s.toList with
    | some x => .ok x
    | none => .error (.badText s)
  | _ => .error .wrongType

end Json

end RoadNames
