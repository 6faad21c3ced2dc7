import RoadNames.Text
set_option autoImplicit false

namespace RoadNames.Names

section

variable {α : Type} [DecidableEq α]

def editDistance : List α → List α → Nat
  | [], b => b.length
  | a, [] => a.length
  | x :: a, y :: b =>
    min (min (editDistance a (y :: b) + 1) (editDistance (x :: a) b + 1))
      (editDistance a b + if x = y then 0 else 1)
termination_by a b => a.length + b.length

def oneSubstitution : List α → List α → Bool
  | x :: a, y :: b => if x = y then oneSubstitution a b else a = b
  | _, _ => false

/-- Whether the second text is the first with one more character. At the first difference a character
of the second is passed over, and then all must agree; if none comes, the last character is the one
more. The answer is missing if the second text ends too early. -/
def oneInsertion? (passed : Bool) : List α → List α → Option Bool
  | [], _ => some true
  | _ :: _, [] => none
  | x :: a, y :: b =>
    if x = y then oneInsertion? passed a b
    else if passed then some false
    else
      match b with
      | [] => none
      | z :: b => if x = z then oneInsertion? true a b else some false

/-- Whether exactly one substitution, insertion or deletion leads from one text to the other. -/
def oneEdit? (a b : List α) : Option Bool :=
  if a.length = b.length then some (oneSubstitution a b)
  else if a.length + 1 = b.length then oneInsertion? false a b
  else if b.length + 1 = a.length then oneInsertion? false b a
  else some false

def oneEdit (a b : List α) : Bool := oneEdit? a b = some true

end

open Text

/-- Ideographic numerals from zero to ten, twenty and thirty. They are not decimal digits. -/
def cjkNumerals : List Char :=
  ['〇', '一', '二', '三', '四', '五', '六', '七', '八', '九', '十', '廿', '卅']

/-- A lone character, with at most one punctuation mark on each side. -/
def isShortIdentifier : List Char → Bool
  | [_] => true
  | [a, b] => isPunctuation a || isPunctuation b
  | [a, _, c] => isPunctuation a && isPunctuation c
  | _ => false

def isIdentifier (word : List Char) : Bool :=
  word.any isDecimalDigit || isShortIdentifier word || word.any cjkNumerals.contains

def consWord (w : List Char) (ws : List (List Char)) : List (List Char) :=
  if w = [] then ws else w :: ws

/-- The word that a text begins with, empty if a blank comes first, and the words after it. -/
def headWord : List Char → List Char × List (List Char)
  | [] => ([], [])
  | c :: rest =>
    let (w, ws) := headWord rest
    if isBlank c then ([], consWord w ws) else (c :: w, ws)

def words (name : List Char) : List (List Char) := consWord (headWord name).1 (headWord name).2

inductive WordKind where
  | identifier
  | spelt
  deriving DecidableEq, Repr

structure Token where
  text : List Char
  kind : WordKind
  deriving DecidableEq, Repr

def Token.ofWord (w : List Char) : Token := ⟨w, if isIdentifier w then .identifier else .spelt⟩

def tokens (name : List Char) : List Token := (words name).map Token.ofWord

def identifiers (name : List Char) : List (List Char) :=
  ((tokens name).filter fun t => t.kind = .identifier).map (·.text)

theorem identifiers_eq (name : List Char) : identifiers name = (words name).filter isIdentifier := by
  unfold identifiers tokens
  induction words name with
  | nil => rfl
  | cons w ws ih => by_cases h : isIdentifier w = true <;> simp_all [Token.ofWord]

/-- Taken together the two names have no more different identifiers than either has identifiers. -/
def sameIdentifiers (a b : List Char) : Bool :=
  let ia := identifiers a
  let ib := identifiers b
  let together := (ia ++ ib).eraseDups.length
  together ≤ ia.length && together ≤ ib.length

def closeLengths (a b : List Char) : Bool := a.length ≤ b.length + 1 && b.length ≤ a.length + 1

def inconsistent (a b : List Char) : Bool :=
  a ≠ [] && b ≠ [] && closeLengths a b && a ≠ b && sameIdentifiers a b && oneEdit a b

def inconsistentNames : Option String → Option String → Bool
  | some a, some b => inconsistent a.toList b.toList
  | _, _ => false

end RoadNames.Names
