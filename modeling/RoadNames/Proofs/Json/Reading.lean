import Mathlib.Data.List.Basic
import Mathlib.Tactic.SplitIfs
import RoadNames.Json.Reader
set_option autoImplicit false

namespace RoadNames.Json

open Decimal Text

/-- What may follow a value. -/
def Closing (s : List Char) : Prop := ∀ c ∈ s.head?, c = ',' ∨ c = ']' ∨ c = '\x7d'

theorem Closing.nil : Closing [] := fun _ h => by cases h

variable {s t rest : List Char}

theorem Closing.cases (h : Closing t) :
    t = [] ∨ ∃ c more, t = c :: more ∧ (c = ',' ∨ c = ']' ∨ c = '\x7d') := by
  cases t with
  | nil => exact .inl rfl
  | cons c more => exact .inr ⟨c, more, rfl, h c rfl⟩

theorem Closing.not_digit (h : Closing t) : ∀ c ∈ t.head?, isPlainDigit c = false := fun c hc => by
  rcases h c hc with rfl | rfl | rfl <;> decide

theorem takeWhile_append_of_head {p : Char → Bool} (h : ∀ c ∈ t.head?, p c = false) :
    (s ++ t).takeWhile p = s.takeWhile p ∧ (s ++ t).dropWhile p = s.dropWhile p ++ t := by
  induction s with
  | nil =>
    cases t with
    | nil => simp
    | cons c t => simp [h c rfl]
  | cons c s ih => by_cases hc : p c = true <;> simp [hc, ih]

theorem readDigits?_append {ds : List Char} (h : readDigits? s = some (ds, rest)) (ht : Closing t) :
    readDigits? (s ++ t) = some (ds, rest ++ t) := by
  obtain ⟨htake, hdrop⟩ := takeWhile_append_of_head (s := s) ht.not_digit
  unfold readDigits? at h ⊢
  split at h
  case h_1 =>
    cases h
    rfl
  case h_2 hzero =>
    dsimp only at h
    split at h
    case isTrue => cases h
    case isFalse hsome =>
      cases h
      split
      case h_1 more heq =>
        cases s with
        | nil => exact absurd rfl hsome
        | cons c s =>
          obtain ⟨rfl, rfl⟩ := List.cons.inj heq
          exact absurd rfl (hzero _)
      case h_2 => simp [htake, hdrop, hsome]

theorem readFraction_append (ht : Closing t) :
    readFraction (s ++ t) = ((readFraction s).1, (readFraction s).2 ++ t) := by
  cases s with
  | nil =>
    rcases ht.cases with rfl | ⟨c, more, rfl, rfl | rfl | rfl⟩ <;> rfl
  | cons c s =>
    obtain ⟨htake, hdrop⟩ := takeWhile_append_of_head (s := s) ht.not_digit
    by_cases hc : c = '.'
    · subst hc
      by_cases hnone : s.takeWhile isPlainDigit = [] <;> simp [readFraction, htake, hdrop, hnone]
    · simp [readFraction, hc]

theorem sign_append (ht : Closing t) : sign (s ++ t) = ((sign s).1, (sign s).2 ++ t) := by
  cases s with
  | nil =>
    rcases ht.cases with rfl | ⟨c, more, rfl, rfl | rfl | rfl⟩ <;> rfl
  | cons c s =>
    by_cases hminus : c = '-'
    · subst hminus; rfl
    · by_cases hplus : c = '+'
      · subst hplus; rfl
      · simp [sign, hminus, hplus]

theorem readExponent_append (ht : Closing t) :
    readExponent (s ++ t) = ((readExponent s).1, (readExponent s).2 ++ t) := by
  cases s with
  | nil =>
    rcases ht.cases with rfl | ⟨c, more, rfl, rfl | rfl | rfl⟩ <;> rfl
  | cons c s =>
    obtain ⟨htake, hdrop⟩ := takeWhile_append_of_head (s := (sign s).2) ht.not_digit
    by_cases he : (c = 'e' || c = 'E') = true
    · by_cases hnone : (sign s).2.takeWhile isPlainDigit = [] <;>
        simp [readExponent, he, sign_append ht, htake, hdrop, hnone]
    · simp [readExponent, he]

theorem readNumber_append {negative : Bool} {v : Json} (h : readNumber negative s = .ok (v, rest))
    (ht : Closing t) : readNumber negative (s ++ t) = .ok (v, rest ++ t) := by
  cases hdigits : readDigits? s with
  | none => simp [readNumber, hdigits] at h
  | some read =>
    obtain ⟨whole, more⟩ := read
    simp only [readNumber, hdigits, readDigits?_append hdigits ht, readFraction_append ht,
      readExponent_append ht] at h ⊢
    split at h
    case isTrue hint =>
      rw [if_pos hint]
      split at h
      case isTrue hshort =>
        cases h
        rw [if_pos hshort]
      case isFalse => cases h
    case isFalse hint =>
      cases h
      rw [if_neg hint]

theorem after?_append {word : List Char} (hword : ∀ c ∈ word, c ≠ ',' ∧ c ≠ ']' ∧ c ≠ '\x7d')
    (ht : Closing t) : after? word (s ++ t) = (after? word s).map (· ++ t) := by
  induction word generalizing s with
  | nil => rfl
  | cons w word ih =>
    cases s with
    | nil =>
      rcases ht.cases with rfl | ⟨c, more, rfl, hc⟩
      · rfl
      · have hw := hword w (by simp)
        have hne : w ≠ c := by rcases hc with rfl | rfl | rfl <;> simp [hw]
        simp [after?, hne]
    | cons c s =>
      have hrest := ih (s := s) fun c hc => hword c (by simp [hc])
      by_cases hc : w = c <;> simp [after?, hc, hrest]

theorem readConstant?_append (ht : Closing t) :
    readConstant? (s ++ t) = (readConstant? s).map fun read => (read.1, read.2 ++ t) := by
  have hwords : ∀ p ∈ constants, ∀ c ∈ p.1, c ≠ ',' ∧ c ≠ ']' ∧ c ≠ '\x7d' := by
    simp [constants]
  unfold readConstant?
  generalize constants = words at hwords
  induction words with
  | nil => rfl
  | cons p words ih =>
    have hfirst := after?_append (s := s) (hwords p (by simp)) ht
    have hrest := ih fun q hq => hwords q (by simp [hq])
    cases hread : after? p.1 s with
    | none => simpa [List.findSome?_cons, hfirst, hread] using hrest
    | some rest => simp [hfirst, hread]

theorem readScalar_of_constant {v : Json} (h : readConstant? s = some (v, rest)) :
    readScalar s = .ok (v, rest) := by
  unfold readScalar
  rw [h]

theorem readScalar_minus (h : readConstant? ('-' :: s) = none) : readScalar ('-' :: s) = readNumber true s := by
  unfold readScalar
  rw [h]
  rfl

theorem readScalar_plain {c : Char} (hc : c ≠ '-') (h : readConstant? (c :: s) = none) :
    readScalar (c :: s) = readNumber false (c :: s) := by
  unfold readScalar
  rw [h]
  dsimp only
  split
  case h_1 heq => exact absurd (List.cons.inj heq).1 hc
  case h_2 => rfl

theorem readScalar_append {v : Json} (h : readScalar s = .ok (v, rest)) (ht : Closing t) :
    readScalar (s ++ t) = .ok (v, rest ++ t) := by
  have happend := readConstant?_append (s := s) ht
  cases hconstant : readConstant? s with
  | some read =>
    obtain rfl : read = (v, rest) := Except.ok.inj ((readScalar_of_constant hconstant).symm.trans h)
    rw [hconstant] at happend
    exact readScalar_of_constant happend
  | none =>
    rw [hconstant] at happend
    cases s with
    | nil => cases h
    | cons c s =>
      by_cases hc : c = '-'
      · subst hc
        rw [readScalar_minus hconstant] at h
        exact (readScalar_minus happend).trans (readNumber_append h ht)
      · rw [readScalar_plain hc hconstant] at h
        exact (readScalar_plain hc happend).trans (readNumber_append h ht)

theorem readDigits?_suffix {ds : List Char} (h : readDigits? s = some (ds, rest)) : rest <:+ s := by
  unfold readDigits? at h
  split at h
  case h_1 =>
    cases h
    exact List.suffix_cons _ _
  case h_2 =>
    dsimp only at h
    split at h <;> cases h
    exact List.dropWhile_suffix _

theorem readFraction_suffix (s : List Char) : (readFraction s).2 <:+ s := by
  unfold readFraction
  split
  case h_1 rest =>
    dsimp only
    split
    · exact List.suffix_rfl
    · exact (List.dropWhile_suffix _).trans (List.suffix_cons _ _)
  case h_2 => exact List.suffix_rfl

theorem sign_suffix (s : List Char) : (sign s).2 <:+ s := by
  unfold sign
  split
  · exact List.suffix_cons _ _
  · exact List.suffix_cons _ _
  · exact List.suffix_rfl

theorem readExponent_suffix (s : List Char) : (readExponent s).2 <:+ s := by
  cases s with
  | nil => exact List.suffix_rfl
  | cons c s =>
    simp only [readExponent]
    split
    · split
      · exact List.suffix_rfl
      · exact ((List.dropWhile_suffix _).trans (sign_suffix s)).trans (List.suffix_cons _ _)
    · exact List.suffix_rfl

theorem readNumber_suffix {negative : Bool} {v : Json} (h : readNumber negative s = .ok (v, rest)) : rest <:+ s := by
  cases hdigits : readDigits? s with
  | none => simp [readNumber, hdigits] at h
  | some read =>
    obtain ⟨whole, more⟩ := read
    have hrest := ((readExponent_suffix _).trans (readFraction_suffix more)).trans (readDigits?_suffix hdigits)
    simp only [readNumber, hdigits] at h
    split at h
    case isTrue =>
      split at h <;> cases h
      exact hrest
    case isFalse =>
      cases h
      exact hrest

theorem after?_suffix {word : List Char} (h : after? word s = some rest) : rest <:+ s := by
  induction word generalizing s with
  | nil =>
    cases h
    exact List.suffix_rfl
  | cons w word ih =>
    cases s with
    | nil => cases h
    | cons c s =>
      simp only [after?] at h
      split at h
      · exact (ih h).trans (List.suffix_cons _ _)
      · cases h

theorem readScalar_suffix {v : Json} (h : readScalar s = .ok (v, rest)) : rest <:+ s := by
  cases hconstant : readConstant? s with
  | some read =>
    obtain rfl : read = (v, rest) := Except.ok.inj ((readScalar_of_constant hconstant).symm.trans h)
    obtain ⟨word, _, hword⟩ := List.exists_of_findSome?_eq_some hconstant
    obtain ⟨left, hleft, heq⟩ := Option.map_eq_some_iff.mp hword
    cases heq
    exact after?_suffix hleft
  | none =>
    cases s with
    | nil => cases h
    | cons c s =>
      by_cases hc : c = '-'
      · subst hc
        rw [readScalar_minus hconstant] at h
        exact (readNumber_suffix h).trans (List.suffix_cons _ _)
      · rw [readScalar_plain hc hconstant] at h
        exact readNumber_suffix h

theorem hexValue?_hexDigit {d : Nat} (h : d < 16) : hexValue? (hexDigit d) = some d := by
  have hall : ∀ d < 16, hexValue? (hexDigit d) = some d := by decide
  exact hall d h

theorem hexFour?_hex {n : Nat} (h : n < 0x10000) :
    ∃ a b c d, hex 4 n = [a, b, c, d] ∧ hexFour? a b c d = some n := by
  refine ⟨_, _, _, _, rfl, ?_⟩
  have hlt : ∀ m, m % 16 < 16 := fun m => Nat.mod_lt m (by decide)
  simp only [hexFour?, hexValue?_hexDigit (hlt _), Option.bind_eq_bind, Option.bind_some, Option.some.injEq]
  omega

theorem readUnit_of_lt {unit : Nat} (h : unit < 0xD800) (s : List Char) :
    readUnit unit s = (Char.ofNat unit, s) := by
  unfold readUnit
  rw [if_neg (by omega), if_neg (by omega)]

theorem readString_escapeChar (c : Char) (fuel : Nat) (done rest : List Char) :
    readString (fuel + 1) done (escapeChar c ++ rest) = readString fuel (c :: done) rest := by
  have hback : ∀ n, c.toNat = n → Char.ofNat n = c := fun n h => by rw [← h, Char.ofNat_toNat]
  unfold escapeChar
  split_ifs with hquoted hn hr ht hb hf hcontrol
  · simp only [Bool.or_eq_true, decide_eq_true_eq] at hquoted
    rcases hquoted with rfl | rfl <;> rfl
  · subst hn; rfl
  · subst hr; rfl
  · subst ht; rfl
  · rw [← hback 8 hb]; rfl
  · rw [← hback 12 hf]; rfl
  · obtain ⟨w, x, y, z, hhex, hread⟩ := hexFour?_hex (n := c.toNat) (by omega)
    have hunit := readUnit_of_lt (show c.toNat < 0xD800 by omega)
    rw [hhex]
    simp only [List.cons_append, List.nil_append, readString, hread, Option.bind_eq_bind,
      Option.bind_some, hunit, Char.ofNat_toNat]
  · -- Any other character stands for itself.
    simp only [Bool.or_eq_true, decide_eq_true_eq, not_or] at hquoted
    rw [List.singleton_append, readString.eq_def]
    dsimp only
    split
    case h_1 heq => cases heq
    case h_2 heq => exact absurd (List.cons.inj heq).1 hquoted.1
    case h_3 heq => exact absurd (List.cons.inj heq).1 hquoted.2
    case h_4 heq => exact absurd (List.cons.inj heq).1 hquoted.2
    case h_5 heq =>
      obtain ⟨rfl, rfl⟩ := List.cons.inj heq
      rw [if_neg hcontrol]

theorem readString_flatMap (s done rest : List Char) (fuel : Nat) (hfuel : s.length < fuel) :
    readString fuel done (s.flatMap escapeChar ++ '"' :: rest) =
      some (String.ofList (done.reverse ++ s), rest) := by
  induction s generalizing done fuel with
  | nil =>
    obtain ⟨fuel, rfl⟩ := Nat.exists_eq_succ_of_ne_zero (Nat.ne_of_gt hfuel)
    simp [readString]
  | cons c s ih =>
    obtain ⟨fuel, rfl⟩ := Nat.exists_eq_succ_of_ne_zero (Nat.ne_of_gt (Nat.zero_lt_of_lt hfuel))
    have hrest := ih (c :: done) fuel (by simpa using hfuel)
    simpa [readString_escapeChar] using hrest

theorem length_escapeChar (c : Char) : 0 < (escapeChar c).length := by
  unfold escapeChar
  split_ifs <;> simp

theorem length_le_flatMap (s : List Char) : s.length ≤ (s.flatMap escapeChar).length := by
  induction s with
  | nil => exact Nat.le_refl _
  | cons c s ih =>
    have hc := length_escapeChar c
    simp only [List.flatMap_cons, List.length_append, List.length_cons]
    omega

theorem hexDigit_ne_newline {d : Nat} (h : d < 16) : hexDigit d ≠ '\n' := by
  have hall : ∀ d < 16, hexDigit d ≠ '\n' := by decide
  exact hall d h

theorem newline_not_mem_escapeChar (c : Char) : '\n' ∉ escapeChar c := by
  have hhex : ∀ m, '\n' ≠ hexDigit (m % 16) := fun m =>
    (hexDigit_ne_newline (Nat.mod_lt m (by decide))).symm
  unfold escapeChar
  split_ifs with hquoted hn
  · simp only [Bool.or_eq_true, decide_eq_true_eq] at hquoted
    rcases hquoted with rfl | rfl <;> decide
  · decide
  · decide
  · decide
  · decide
  · decide
  · simp [hex, hhex]
  · simpa using Ne.symm hn

theorem newline_not_mem_quoteString (s : List Char) : '\n' ∉ quoteString s := by
  simp [quoteString, newline_not_mem_escapeChar]

end RoadNames.Json
