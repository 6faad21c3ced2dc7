import Mathlib.Data.List.Induction
import RoadNames.Proofs.Names.EditDistance
set_option autoImplicit false

/-!
The words of a text that is put together from parts, and what a single edit does to the words of a
text: those before and after it stay, and at most the words that touch it change.
-/

namespace RoadNames.Names

open RoadNames.Text

@[simp] theorem consWord_nil (ws : List (List Char)) : consWord [] ws = ws := rfl

theorem consWord_of_ne {w : List Char} (h : w ≠ []) (ws : List (List Char)) :
    consWord w ws = w :: ws := if_neg h

theorem consWord_append (w : List Char) (us vs : List (List Char)) :
    consWord w (us ++ vs) = consWord w us ++ vs := by
  by_cases h : w = []
  · simp [h]
  · simp [consWord_of_ne h]

theorem mem_consWord {w v : List Char} {ws : List (List Char)} :
    v ∈ consWord w ws ↔ (v = w ∧ w ≠ []) ∨ v ∈ ws := by
  by_cases h : w = []
  · simp [h]
  · simp [consWord_of_ne h, h]

theorem length_consWord_nil_le (w : List Char) : (consWord w []).length ≤ 1 := by
  by_cases h : w = []
  · simp [h]
  · simp [consWord_of_ne h]

theorem words_eq (s : List Char) : words s = consWord (headWord s).1 (headWord s).2 := rfl

theorem headWord_blank {c : Char} (h : isBlank c = true) (s : List Char) :
    headWord (c :: s) = ([], words s) := by simp [headWord, h, words]

theorem headWord_letter {c : Char} (h : isBlank c = false) (s : List Char) :
    headWord (c :: s) = (c :: (headWord s).1, (headWord s).2) := by simp [headWord, h]

theorem exists_words_append (p : List Char) :
    ∃ (front : List (List Char)) (t : List Char), ∀ s,
      words (p ++ s) = front ++ consWord (t ++ (headWord s).1) (headWord s).2 := by
  -- the last character of `p` decides whether its last word goes on, hence from the end
  induction p using List.reverseRecOn with
  | nil => exact ⟨[], [], words_eq⟩
  | append_singleton p c ih =>
    obtain ⟨front, t, h⟩ := ih
    cases hc : isBlank c with
    | true =>
      refine ⟨front ++ consWord t [], [], fun s => ?_⟩
      have hs : words (p ++ [c] ++ s) = front ++ consWord t (words s) := by
        simpa [headWord_blank hc] using h (c :: s)
      rw [hs, List.append_assoc, ← consWord_append]
      rfl
    | false =>
      refine ⟨front, t ++ [c], fun s => ?_⟩
      simpa [headWord_letter hc] using h (c :: s)

theorem words_append_blank {c : Char} (hc : isBlank c = true) (s t : List Char) :
    words (s ++ c :: t) = words s ++ words t := by
  obtain ⟨front, rest, h⟩ := exists_words_append s
  have hs : words s = front ++ consWord rest [] := by simpa [headWord] using h []
  rw [h, hs, headWord_blank hc, List.append_nil, List.append_assoc, ← consWord_append, List.nil_append]

/-- The words between the rest `t` of a word and the beginning `v` of one, when a character or none
stands between them. -/
def wordsAt (t v : List Char) : Option Char → List (List Char)
  | none => consWord (t ++ v) []
  | some c => if isBlank c then consWord t (consWord v []) else [t ++ c :: v]

theorem exists_words_around (p s : List Char) :
    ∃ (front back : List (List Char)) (t v : List Char), ∀ x : Option Char,
      words (p ++ (x.toList ++ s)) = front ++ wordsAt t v x ++ back := by
  obtain ⟨front, t, h⟩ := exists_words_append p
  refine ⟨front, (headWord s).2, t, (headWord s).1, fun x => ?_⟩
  rw [h, List.append_assoc]
  congr 1
  cases x with
  | none => simp [wordsAt, ← consWord_append]
  | some c =>
    cases hc : isBlank c with
    | true => simp [wordsAt, hc, headWord_blank hc, words_eq, ← consWord_append]
    | false =>
      have hne : t ++ c :: (headWord s).1 ≠ [] := by simp
      simp [wordsAt, hc, headWord_letter hc, consWord_of_ne hne]

theorem wordsAt_eq_or_short (t v : List Char) (x y : Option Char) :
    wordsAt t v x = wordsAt t v y ∨ (wordsAt t v x).length ≤ 1 ∨ (wordsAt t v y).length ≤ 1 := by
  -- two words come only of a blank, and which blank it is does not matter
  have short : ∀ z, (∃ c, z = some c ∧ isBlank c = true) ∨ (wordsAt t v z).length ≤ 1 := by
    intro z
    cases z with
    | none => exact .inr (length_consWord_nil_le (t ++ v))
    | some c =>
      cases hc : isBlank c with
      | true => exact .inl ⟨c, rfl, hc⟩
      | false => exact .inr (by simp [wordsAt, hc])
  rcases short x with ⟨c, rfl, hc⟩ | hx
  · rcases short y with ⟨d, rfl, hd⟩ | hy
    · exact .inl (by simp [wordsAt, hc, hd])
    · exact .inr (.inr hy)
  · exact .inr (.inl hx)

theorem mem_wordsAt_none {t v w : List Char} : w ∈ wordsAt t v none ↔ w = t ++ v ∧ t ++ v ≠ [] := by
  simp only [wordsAt, mem_consWord, List.not_mem_nil, or_false]

theorem mem_wordsAt_blank {t v w : List Char} {c : Char} (hc : isBlank c = true) :
    w ∈ wordsAt t v (some c) ↔ (w = t ∧ t ≠ []) ∨ (w = v ∧ v ≠ []) := by
  simp only [wordsAt, hc, ↓reduceIte, mem_consWord, List.not_mem_nil, or_false]

theorem mem_wordsAt_letter {t v w : List Char} {c : Char} (hc : isBlank c = false) :
    w ∈ wordsAt t v (some c) ↔ w = t ++ c :: v := by
  simp only [wordsAt, hc, Bool.false_eq_true, ↓reduceIte, List.mem_singleton]

theorem isBlank_of_mem_wordsAt {t v w : List Char} {c : Char} {y : Option Char} (hcy : some c ≠ y)
    (hx : w ∈ wordsAt t v (some c)) (hy : w ∈ wordsAt t v y) : isBlank c = true := by
  by_contra h
  have hc : isBlank c = false := by simpa using h
  -- a character that is no blank stands in a word longer than all that is on its sides
  have hw : w = t ++ c :: v := (mem_wordsAt_letter hc).mp hx
  have hlen : w.length = t.length + v.length + 1 := by simp [hw]; omega
  cases y with
  | none =>
    have he : w.length = t.length + v.length := by simp [(mem_wordsAt_none.mp hy).1]
    omega
  | some d =>
    cases hd : isBlank d with
    | true =>
      rcases (mem_wordsAt_blank hd).mp hy with ⟨rfl, _⟩ | ⟨rfl, _⟩ <;> omega
    | false =>
      have he : t ++ c :: v = t ++ d :: v := hw.symm.trans ((mem_wordsAt_letter hd).mp hy)
      exact hcy (by simpa using he)

theorem wordsAt_none_eq_blank {t v w : List Char} {c : Char} (hc : isBlank c = true)
    (hx : w ∈ wordsAt t v none) (hy : w ∈ wordsAt t v (some c)) :
    wordsAt t v none = wordsAt t v (some c) := by
  have hw : w = t ++ v := (mem_wordsAt_none.mp hx).1
  rcases (mem_wordsAt_blank hc).mp hy with ⟨rfl, _⟩ | ⟨rfl, _⟩
  · have hv : v = [] := by simpa using hw
    simp [wordsAt, hc, hv]
  · have ht : t = [] := by simpa using hw
    simp [wordsAt, hc, ht]

/-- With another character in the place, or none, no word is the same unless all are. -/
theorem wordsAt_eq_of_mem {t v w : List Char} {x y : Option Char} (hxy : x ≠ y)
    (hx : w ∈ wordsAt t v x) (hy : w ∈ wordsAt t v y) : wordsAt t v x = wordsAt t v y := by
  cases x with
  | none =>
    cases y with
    | none => rfl
    | some d => exact wordsAt_none_eq_blank (isBlank_of_mem_wordsAt hxy.symm hy hx) hx hy
  | some c =>
    have hc := isBlank_of_mem_wordsAt hxy hx hy
    cases y with
    | none => exact (wordsAt_none_eq_blank hc hy hx).symm
    | some d =>
      have hd := isBlank_of_mem_wordsAt hxy.symm hy hx
      simp [wordsAt, hc, hd]

/-- The words that an edit changes, between those that it leaves. Words come two at a time only where
both texts have a blank, and if one word outlives the change, nothing was changed. -/
theorem Edit.words_around {a b : List Char} (h : Edit a b) :
    ∃ front old new back : List (List Char),
      words a = front ++ old ++ back ∧ words b = front ++ new ++ back ∧
        (old = new ∨ old.length ≤ 1 ∨ new.length ≤ 1) ∧ ∀ w ∈ old, w ∈ new → old = new := by
  obtain ⟨p, s, x, y, hxy, rfl, rfl⟩ := h.around
  obtain ⟨front, back, t, v, hwords⟩ := exists_words_around p s
  exact ⟨front, wordsAt t v x, wordsAt t v y, back, hwords x, hwords y,
    wordsAt_eq_or_short t v x y, fun _ hx hy => wordsAt_eq_of_mem hxy hx hy⟩

end RoadNames.Names
