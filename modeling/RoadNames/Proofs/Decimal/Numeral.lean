import Mathlib.Data.List.TakeWhile
import Mathlib.Data.Nat.Digits.Defs
import RoadNames.Decimal
set_option autoImplicit false

namespace RoadNames.Decimal

open Text

/-- Digits with the given values, and perhaps an underscore between a digit and the next. -/
inductive WritesDigits : List Char → List Nat → Prop where
  | last {c : Char} {d : Nat} (hc : digitValue? c = some d) : WritesDigits [c] [d]
  | next {c : Char} {d : Nat} {s : List Char} {ds : List Nat} (hc : digitValue? c = some d)
    (hs : WritesDigits s ds) : WritesDigits (c :: s) (d :: ds)
  | group {c : Char} {d : Nat} {s : List Char} {ds : List Nat} (hc : digitValue? c = some d)
    (hs : WritesDigits s ds) : WritesDigits (c :: '_' :: s) (d :: ds)

def signs : List (List Char × Bool) := [([], false), (['+'], false), (['-'], true)]

/-- The text writes the integer, in no more digits than are read. -/
def Writes (s : List Char) (n : Int) : Prop :=
  ∃ before mark body after negative ds, s = before ++ (mark ++ body) ++ after ∧
    (∀ c ∈ before, isWhiteSpace c = true) ∧ (∀ c ∈ after, isWhiteSpace c = true) ∧
    (mark, negative) ∈ signs ∧ WritesDigits body ds ∧ ds.length ≤ digitLimit ∧
    n = negateInt negative (Nat.ofDigits 10 ds.reverse)

variable {c : Char} {d : Nat} {s body : List Char} {ds : List Nat}

theorem lt_of_digitValue? (h : digitValue? c = some d) : d < 10 := by
  obtain ⟨r, _, rfl⟩ := Option.map_eq_some_iff.mp h
  exact Nat.mod_lt _ (by decide)

theorem not_isWhiteSpace_of_digitValue? (h : digitValue? c = some d) : isWhiteSpace c = false := by
  have hapart : ∀ r ∈ digitRanges, ∀ w ∈ whiteSpaceRanges, r.2 < w.1 ∨ w.2 < r.1 := by decide +kernel
  obtain ⟨r, hr, _⟩ := Option.map_eq_some_iff.mp h
  have hin := List.find?_some hr
  rw [← Bool.not_eq_true, isWhiteSpace, inRanges_iff ascending_whiteSpaceRanges]
  rintro ⟨w, hw, hlow, hhigh⟩
  have := hapart r (List.mem_of_find?_eq_some hr) w hw
  simp only [Bool.and_eq_true, decide_eq_true_eq] at hin
  omega

theorem exists_digitValue?_of_isPlainDigit (h : isPlainDigit c = true) : ∃ d, digitValue? c = some d := by
  have hfirst : (0x30 ≤ c.toNat && c.toNat ≤ 0x39) = true := by
    simpa [isPlainDigit, Char.le_def, UInt32.le_iff_toNat_le] using h
  exact ⟨_, by simp only [digitValue?, digitRanges, List.find?_cons, hfirst]; rfl⟩

theorem digitChar_cases (h : d < 10) :
    isPlainDigit (digitChar d) = true ∧ (digitChar d).toNat - 48 = d ∧ digitChar d ≠ '_' ∧ digitChar d ≠ '+' ∧
      digitChar d ≠ '-' := by
  have hall : ∀ d < 10, isPlainDigit (digitChar d) = true ∧ (digitChar d).toNat - 48 = d ∧ digitChar d ≠ '_' ∧
      digitChar d ≠ '+' ∧ digitChar d ≠ '-' := by decide +kernel
  exact hall d h

/-- A character with a digit in place of a digit of any script. -/
def plain (c : Char) : Char := ((digitValue? c).map digitChar).getD c

theorem plain_of_digit (h : digitValue? c = some d) : plain c = digitChar d := by simp [plain, h]

theorem plain_eq_iff {mark : Char} (hmark : digitValue? mark = none) (hplain : isPlainDigit mark = false) :
    plain c = mark ↔ c = mark := by
  cases hc : digitValue? c with
  | none => simp [plain, hc]
  | some d =>
    have hdigit := (digitChar_cases (lt_of_digitValue? hc)).1
    rw [plain_of_digit hc]
    constructor
    · rintro rfl
      simp [hdigit] at hplain
    · rintro rfl
      simp [hc] at hmark

theorem digit_of_isPlainDigit_plain (h : isPlainDigit (plain c) = true) :
    digitValue? c = some ((plain c).toNat - 48) := by
  cases hc : digitValue? c with
  | none =>
    obtain ⟨d, hd⟩ := exists_digitValue?_of_isPlainDigit (c := c) (by simpa [plain, hc] using h)
    simp [hc] at hd
  | some d => rw [plain_of_digit hc, (digitChar_cases (lt_of_digitValue? hc)).2.1]

theorem natOf_digitChars (hds : ∀ d ∈ ds, d < 10) (n : Nat) :
    natOf n (ds.map digitChar) = n * 10 ^ ds.length + Nat.ofDigits 10 ds.reverse := by
  induction ds generalizing n with
  | nil => simp [natOf]
  | cons d ds ih =>
    have hd := (digitChar_cases (hds d (by simp))).2.1
    have hrest : natOf n ((d :: ds).map digitChar) = natOf (10 * n + d) (ds.map digitChar) := by
      simp [natOf, hd]
    rw [hrest, ih fun e he => hds e (List.mem_cons_of_mem d he)]
    simp only [List.length_cons, List.reverse_cons, Nat.ofDigits_append, List.length_reverse,
      Nat.ofDigits_singleton]
    ring

theorem WritesDigits.lt_ten (h : WritesDigits body ds) : ∀ d ∈ ds, d < 10 := by
  induction h with
  | last hc => simpa using lt_of_digitValue? hc
  | next hc _ ih => simpa using ⟨lt_of_digitValue? hc, ih⟩
  | group hc _ ih => simpa using ⟨lt_of_digitValue? hc, ih⟩

theorem WritesDigits.ne_nil (h : WritesDigits body ds) : ds ≠ [] := by
  cases h <;> simp

theorem WritesDigits.not_white (h : WritesDigits body ds) : ∀ c ∈ body, isWhiteSpace c = false := by
  have hunderscore : isWhiteSpace '_' = false := by decide
  induction h with
  | last hc => simpa using not_isWhiteSpace_of_digitValue? hc
  | next hc _ ih => simpa using ⟨not_isWhiteSpace_of_digitValue? hc, ih⟩
  | group hc _ ih => simpa [hunderscore] using ⟨not_isWhiteSpace_of_digitValue? hc, ih⟩

theorem joinGroups_digit {before : Char} (h : isPlainDigit c = true) (s : List Char) :
    joinGroups before (c :: s) = (joinGroups c s).map (c :: ·) := by
  have hc : c ≠ '_' := by
    rintro rfl
    cases h
  simp [joinGroups, hc, h]

theorem joinGroups_of_writesDigits (h : WritesDigits body ds) (before : Char) :
    joinGroups before (body.map plain) = some (ds.map digitChar) := by
  induction h generalizing before with
  | last hc =>
    obtain ⟨hdigit, _, hne, _⟩ := digitChar_cases (lt_of_digitValue? hc)
    simp [plain_of_digit hc, joinGroups_digit hdigit, joinGroups, hne]
  | next hc _ ih =>
    have hdigit := (digitChar_cases (lt_of_digitValue? hc)).1
    rw [List.map_cons, plain_of_digit hc, joinGroups_digit hdigit, ih]
    rfl
  | @group c d s ds hc _ ih =>
    have hdigit := (digitChar_cases (lt_of_digitValue? hc)).1
    have hunderscore : plain '_' = '_' := by decide
    have hgroup : joinGroups (digitChar d) ('_' :: s.map plain) = joinGroups '_' (s.map plain) := by
      simp [joinGroups, hdigit]
    rw [List.map_cons, List.map_cons, plain_of_digit hc, hunderscore, joinGroups_digit hdigit, hgroup, ih]
    rfl

theorem writesDigits_of_joinGroups {before : Char} {joined : List Char}
    (h : joinGroups before (body.map plain) = some joined) (hjoined : ∀ c ∈ joined, isPlainDigit c = true) :
    (body = [] ∧ joined = [] ∧ before ≠ '_') ∨
      ∃ ds, joined = ds.map digitChar ∧
        (WritesDigits body ds ∨ ∃ s, body = '_' :: s ∧ isPlainDigit before = true ∧ WritesDigits s ds) := by
  induction body generalizing before joined with
  | nil =>
    have hbefore : before ≠ '_' := by
      rintro rfl
      cases h
    exact .inl ⟨rfl, by simpa [joinGroups, hbefore, eq_comm] using h, hbefore⟩
  | cons c s ih =>
    by_cases hc : plain c = '_'
    · obtain rfl := (plain_eq_iff (by decide) (by decide)).mp hc
      have hbefore : isPlainDigit before = true := by
        by_contra hnot
        simp [joinGroups, hc, hnot] at h
      rw [List.map_cons, hc, joinGroups, if_pos rfl, if_pos hbefore] at h
      rcases ih h hjoined with ⟨_, _, hne⟩ | ⟨ds, hds, hs | ⟨_, _, hfalse, _⟩⟩
      · exact absurd rfl hne
      · exact .inr ⟨ds, hds, .inr ⟨s, rfl, hbefore, hs⟩⟩
      · cases hfalse
    · rw [List.map_cons, joinGroups, if_neg hc] at h
      split at h
      · cases h
      obtain ⟨rest, hrest, rfl⟩ := Option.map_eq_some_iff.mp h
      have hdigit := digit_of_isPlainDigit_plain (hjoined (plain c) (by simp))
      have hplain := plain_of_digit hdigit
      refine .inr ?_
      rcases ih hrest fun c hc => hjoined c (List.mem_cons_of_mem _ hc) with
        ⟨rfl, rfl, _⟩ | ⟨ds, rfl, hs | ⟨t, rfl, _, ht⟩⟩
      · exact ⟨[(plain c).toNat - 48], by simp [← hplain], .inl (.last hdigit)⟩
      · exact ⟨((plain c).toNat - 48) :: ds, by simp [← hplain], .inl (.next hdigit hs)⟩
      · exact ⟨((plain c).toNat - 48) :: ds, by simp [← hplain], .inl (.group hdigit ht)⟩

theorem trim_append {before after : List Char} (hbefore : ∀ c ∈ before, isWhiteSpace c = true)
    (hs : ∀ c ∈ s, isWhiteSpace c = false) (hafter : ∀ c ∈ after, isWhiteSpace c = true) (hne : s ≠ []) :
    trim (before ++ s ++ after) = s := by
  have hkept : ∀ (t more : List Char), t ≠ [] → (∀ c ∈ t, isWhiteSpace c = false) →
      (t ++ more).dropWhile isWhiteSpace = t ++ more := by
    intro t more ht hwhite
    cases t with
    | nil => exact absurd rfl ht
    | cons c t => simp [hwhite c (by simp)]
  rw [trim, List.append_assoc, List.dropWhile_append_of_pos hbefore, hkept s after hne hs, List.reverse_append,
    List.dropWhile_append_of_pos (by simpa using hafter)]
  have hreverse := hkept s.reverse [] (by simpa using hne) (by simpa using hs)
  rw [List.append_nil] at hreverse
  rw [hreverse, List.reverse_reverse]

theorem exists_trim (s : List Char) :
    ∃ before after, s = before ++ trim s ++ after ∧ (∀ c ∈ before, isWhiteSpace c = true) ∧
      ∀ c ∈ after, isWhiteSpace c = true := by
  refine ⟨s.takeWhile isWhiteSpace, ((s.dropWhile isWhiteSpace).reverse.takeWhile isWhiteSpace).reverse, ?_,
    fun c hc => List.mem_takeWhile_imp hc, fun c hc => List.mem_takeWhile_imp (List.mem_reverse.mp hc)⟩
  rw [trim, List.append_assoc, ← List.reverse_append, List.takeWhile_append_dropWhile, List.reverse_reverse,
    List.takeWhile_append_dropWhile]

theorem mem_signs_cases {mark : List Char} {negative : Bool} (h : (mark, negative) ∈ signs) :
    mark = [] ∧ negative = false ∨ mark = ['+'] ∧ negative = false ∨ mark = ['-'] ∧ negative = true := by
  simpa [signs] using h

theorem not_white_of_mem_signs {mark : List Char} {negative : Bool} (h : (mark, negative) ∈ signs) :
    ∀ c ∈ mark, isWhiteSpace c = false := by
  intro c hc
  rcases mem_signs_cases h with ⟨rfl, _⟩ | ⟨rfl, _⟩ | ⟨rfl, _⟩
  · cases hc
  · rw [List.mem_singleton.mp hc]
    decide
  · rw [List.mem_singleton.mp hc]
    decide

theorem sign_digitChars (hds : ∀ d ∈ ds, d < 10) : sign (ds.map digitChar) = (false, ds.map digitChar) := by
  cases ds with
  | nil => rfl
  | cons d ds =>
    obtain ⟨_, _, _, hplus, hminus⟩ := digitChar_cases (hds d (by simp))
    simp [sign, hplus, hminus]

theorem normalize?_eq (s : List Char) : normalize? digitValue? s = joinGroups ' ' ((trim s).map plain) := rfl

theorem readInt?_of_writes {n : Int} (h : Writes s n) : readInt? digitValue? s = some n := by
  obtain ⟨before, mark, body, after, negative, ds, rfl, hbefore, hafter, hmark, hbody, hshort, rfl⟩ := h
  have hdigits : ∀ c ∈ ds.map digitChar, isPlainDigit c = true := by
    simpa using fun d hd => (digitChar_cases (hbody.lt_ten d hd)).1
  have hread : normalize? digitValue? (before ++ (mark ++ body) ++ after) = some (mark ++ ds.map digitChar) ∧
      sign (mark ++ ds.map digitChar) = (negative, ds.map digitChar) := by
    have hne : mark ++ body ≠ [] := by
      cases hbody <;> simp
    have hjoin := joinGroups_of_writesDigits hbody
    rw [normalize?_eq, trim_append hbefore ?white hafter hne, List.map_append]
    case white =>
      exact fun c hc => (List.mem_append.mp hc).elim (not_white_of_mem_signs hmark c) (hbody.not_white c)
    obtain ⟨rfl, rfl⟩ | ⟨rfl, rfl⟩ | ⟨rfl, rfl⟩ := mem_signs_cases hmark
    · exact ⟨hjoin ' ', sign_digitChars hbody.lt_ten⟩
    · exact ⟨congrArg (Option.map ('+' :: ·)) (hjoin '+'), rfl⟩
    · exact ⟨congrArg (Option.map ('-' :: ·)) (hjoin '-'), rfl⟩
  have hvalue := natOf_digitChars hbody.lt_ten 0
  simp only [Nat.zero_mul, Nat.zero_add] at hvalue
  rw [readInt?, hread.1, Option.bind_eq_bind, Option.bind_some, hread.2]
  simp [hbody.ne_nil, hvalue, List.all_eq_true.mpr hdigits, hshort]

theorem writesDigits_of_plain {before : Char} {joined : List Char} (hbefore : isPlainDigit before = false)
    (h : joinGroups before (body.map plain) = some joined) (hne : joined ≠ [])
    (hjoined : joined.all isPlainDigit = true) : ∃ ds, joined = ds.map digitChar ∧ WritesDigits body ds := by
  rcases writesDigits_of_joinGroups h (List.all_eq_true.mp hjoined) with
    ⟨_, rfl, _⟩ | ⟨ds, hds, hbody | ⟨_, _, hdigit, _⟩⟩
  · exact absurd rfl hne
  · exact ⟨ds, hds, hbody⟩
  · simp [hbefore] at hdigit

theorem joinGroups_mark {mark : Char} {joined : List Char} (hmark : mark ∈ ['+', '-'])
    (h : joinGroups ' ' (s.map plain) = some (mark :: joined)) :
    ∃ body, s = mark :: body ∧ joinGroups mark (body.map plain) = some joined := by
  have hplain : digitValue? mark = none ∧ isPlainDigit mark = false := by
    obtain rfl | rfl : mark = '+' ∨ mark = '-' := by simpa using hmark
    · decide
    · decide
  cases s with
  | nil => cases h
  | cons c body =>
    have hc : plain c ≠ '_' := by
      intro hc
      rw [List.map_cons, hc] at h
      cases h
    rw [List.map_cons, joinGroups, if_neg hc, if_neg (by simp)] at h
    obtain ⟨rest, hrest, hcons⟩ := Option.map_eq_some_iff.mp h
    obtain ⟨hmark', rfl⟩ := List.cons.inj hcons
    obtain rfl := (plain_eq_iff hplain.1 hplain.2).mp hmark'
    exact ⟨body, rfl, hmark' ▸ hrest⟩

theorem sign_cases (s : List Char) :
    (∃ rest, s = '-' :: rest) ∨ (∃ rest, s = '+' :: rest) ∨ sign s = (false, s) := by
  unfold sign
  split
  case h_1 rest => exact .inl ⟨rest, rfl⟩
  case h_2 rest => exact .inr (.inl ⟨rest, rfl⟩)
  case h_3 => exact .inr (.inr rfl)

theorem exists_signs_of_joinGroups {joined : List Char} (h : joinGroups ' ' (s.map plain) = some joined)
    (hne : (sign joined).2 ≠ []) (hdigits : (sign joined).2.all isPlainDigit = true) :
    ∃ mark body ds, s = mark ++ body ∧ (mark, (sign joined).1) ∈ signs ∧ (sign joined).2 = ds.map digitChar ∧
      WritesDigits body ds := by
  rcases sign_cases joined with ⟨rest, rfl⟩ | ⟨rest, rfl⟩ | hnone
  · obtain ⟨body, rfl, hbody⟩ := joinGroups_mark (by simp) h
    obtain ⟨ds, hds, hwrites⟩ := writesDigits_of_plain (by decide) hbody hne hdigits
    exact ⟨['-'], body, ds, rfl, by simp [signs, sign], hds, hwrites⟩
  · obtain ⟨body, rfl, hbody⟩ := joinGroups_mark (by simp) h
    obtain ⟨ds, hds, hwrites⟩ := writesDigits_of_plain (by decide) hbody hne hdigits
    exact ⟨['+'], body, ds, rfl, by simp [signs, sign], hds, hwrites⟩
  · rw [hnone] at hne hdigits ⊢
    obtain ⟨ds, hds, hwrites⟩ := writesDigits_of_plain (by decide) h hne hdigits
    exact ⟨[], s, ds, rfl, by simp [signs], hds, hwrites⟩

theorem writes_of_readInt? {n : Int} (h : readInt? digitValue? s = some n) : Writes s n := by
  cases hjoined : normalize? digitValue? s with
  | none => simp [readInt?, hjoined] at h
  | some joined =>
    rw [readInt?, hjoined, Option.bind_eq_bind, Option.bind_some] at h
    simp only [ne_eq, Option.ite_none_right_eq_some, Bool.and_eq_true, decide_eq_true_eq, Option.some.injEq] at h
    obtain ⟨⟨⟨hne, hdigits⟩, hshort⟩, hn⟩ := h
    obtain ⟨mark, body, ds, htrim, hmark, hds, hbody⟩ :=
      exists_signs_of_joinGroups ((normalize?_eq s).symm.trans hjoined) hne hdigits
    obtain ⟨before, after, hs, hbefore, hafter⟩ := exists_trim s
    have hvalue := natOf_digitChars hbody.lt_ten 0
    simp only [Nat.zero_mul, Nat.zero_add] at hvalue
    refine ⟨before, mark, body, after, _, ds, htrim ▸ hs, hbefore, hafter, hmark, hbody, ?_, ?_⟩
    · simpa [hds] using hshort
    · rw [← hn, hds, hvalue]

/-- A text is read as an integer just if it writes it. -/
theorem readInt?_eq_some_iff (s : List Char) (n : Int) : readInt? digitValue? s = some n ↔ Writes s n :=
  ⟨writes_of_readInt?, readInt?_of_writes⟩

theorem trim_singleton (c : Char) : trim [c] = if isWhiteSpace c then [] else [c] := by
  cases h : isWhiteSpace c <;> simp [trim, h]

theorem readMagnitude?_digit (h : isPlainDigit c = true) :
    readMagnitude? [c] = some (nearestFloat (c.toNat - 48) 1 0) := by
  simp [readMagnitude?, h, natOf]

theorem readMagnitude?_other (h : isPlainDigit c = false) : readMagnitude? [c] = none := by
  by_cases hpoint : c = '.'
  · subst hpoint
    rfl
  · simp [readMagnitude?, h, hpoint]

theorem joinGroups_singleton (c : Char) : joinGroups ' ' [c] = if c = '_' then none else some [c] := by
  by_cases hc : c = '_' <;> simp [joinGroups, hc, isPlainDigit]

theorem readFloat?_of_short {joined : List Char} (h : normalize? digitValue? s = some joined)
    (hlength : joined.length ≤ 1) :
    readFloat? digitValue? s =
      (readMagnitude? (sign joined).2).map fun x => if (sign joined).1 then -x else x := by
  have hbody : (sign joined).2.length ≤ 1 := by
    rcases sign_cases joined with ⟨rest, rfl⟩ | ⟨rest, rfl⟩ | hnone
    · simp only [sign, List.length_cons] at hlength ⊢
      omega
    · simp only [sign, List.length_cons] at hlength ⊢
      omega
    · rwa [hnone]
  have hword : ∀ word : List Char, 1 < word.length → (sign joined).2.map Char.toLower ≠ word := by
    rintro word hlong rfl
    rw [List.length_map] at hlong
    omega
  have hinfinity : (infinityWords.contains ((sign joined).2.map Char.toLower)) = false := by
    simp only [infinityWords, List.contains_cons, List.contains_nil, Bool.or_false, Bool.or_eq_false_iff,
      beq_eq_false_iff_ne]
    exact ⟨hword _ (by decide), hword _ (by decide)⟩
  simp only [readFloat?, h, Option.bind_eq_bind, Option.bind_some, hinfinity, Bool.false_eq_true, if_false,
    if_neg (hword undefinedWord (by decide))]
  cases readMagnitude? (sign joined).2 <;> rfl

theorem readFloat?_singleton (c : Char) :
    readFloat? digitValue? [c] = (digitValue? c).map fun d => nearestFloat d 1 0 := by
  have hread := normalize?_eq [c]
  rw [trim_singleton] at hread
  cases hc : digitValue? c with
  | some d =>
    obtain ⟨hdigit, hvalue, _⟩ := digitChar_cases (lt_of_digitValue? hc)
    rw [not_isWhiteSpace_of_digitValue? hc] at hread
    have hjoin := joinGroups_of_writesDigits (.last hc) ' '
    rw [readFloat?_of_short (hread.trans hjoin) (by simp), sign_digitChars (by simpa using lt_of_digitValue? hc)]
    simp [readMagnitude?_digit hdigit, hvalue]
  | none =>
    have hplain : plain c = c := by simp [plain, hc]
    have hdigit : isPlainDigit c = false := by
      rw [← Bool.not_eq_true]
      intro hdigit
      obtain ⟨d, hd⟩ := exists_digitValue?_of_isPlainDigit hdigit
      simp [hc] at hd
    cases hwhite : isWhiteSpace c with
    | true =>
      rw [hwhite] at hread
      rw [readFloat?_of_short hread (by simp)]
      rfl
    | false =>
      rw [hwhite, if_neg Bool.false_ne_true, List.map_singleton, hplain, joinGroups_singleton] at hread
      by_cases hunderscore : c = '_'
      · rw [if_pos hunderscore] at hread
        simp [readFloat?, hread]
      · rw [if_neg hunderscore] at hread
        rw [readFloat?_of_short hread (by simp)]
        rcases sign_cases [c] with ⟨rest, h⟩ | ⟨rest, h⟩ | h
        · cases h
          rfl
        · cases h
          rfl
        · rw [h, readMagnitude?_other hdigit]
          rfl

end RoadNames.Decimal
