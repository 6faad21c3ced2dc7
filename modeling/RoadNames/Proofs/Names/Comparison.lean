import Mathlib.Data.Finset.Card
import RoadNames.Proofs.Names.Words
set_option autoImplicit false

/-!
Which pairs of names are one name spelt in two ways. Names that repeat no identifier must have the same
identifiers in the same order. Repetitions are counted, though, and can make up for identifiers that
the names do not share.
-/

namespace RoadNames.Names

theorem nodup_eraseDups {α : Type} [BEq α] [LawfulBEq α] (xs : List α) : xs.eraseDups.Nodup := by
  induction h : xs.length using Nat.strongRecOn generalizing xs with
  | ind n ih =>
    cases xs with
    | nil => simp
    | cons x xs =>
      have hlt : (xs.filter fun y => !y == x).length < n := by
        have := List.length_filter_le (fun y => !y == x) xs
        simp only [List.length_cons] at h
        omega
      rw [List.eraseDups_cons, List.nodup_cons]
      refine ⟨fun hx => ?_, ih _ hlt _ rfl⟩
      simp [List.mem_eraseDups] at hx

def identifierSet (name : List Char) : Finset (List Char) := (identifiers name).toFinset

/-- How many identifiers of the first name are not in the second. -/
def unshared (a b : List Char) : Nat := (identifierSet a \ identifierSet b).card

/-- How many identifiers of a name repeat an earlier one. -/
def repeats (name : List Char) : Nat := (identifiers name).length - (identifierSet name).card

theorem mem_identifierSet {w name : List Char} : w ∈ identifierSet name ↔ w ∈ identifiers name :=
  List.mem_toFinset

theorem unshared_eq_zero_iff (a b : List Char) :
    unshared a b = 0 ↔ ∀ w ∈ identifiers a, w ∈ identifiers b := by
  simp [unshared, Finset.subset_iff, mem_identifierSet]

theorem repeats_of_nodup {name : List Char} (h : (identifiers name).Nodup) : repeats name = 0 := by
  simp [repeats, identifierSet, List.toFinset_card_of_nodup h]

theorem together_eq (a b : List Char) :
    (identifiers a ++ identifiers b).eraseDups.length = (identifierSet a ∪ identifierSet b).card := by
  rw [← List.toFinset_card_of_nodup (nodup_eraseDups _)]
  congr 1
  ext w
  simp [mem_identifierSet, List.mem_eraseDups]

theorem card_union_le_iff (a b : List Char) :
    (identifierSet a ∪ identifierSet b).card ≤ (identifiers b).length ↔ unshared a b ≤ repeats b := by
  have hunion := Finset.card_sdiff_add_card (identifierSet a) (identifierSet b)
  have hle : (identifierSet b).card ≤ (identifiers b).length := List.toFinset_card_le _
  unfold unshared repeats
  omega

theorem sameIdentifiers_iff (a b : List Char) :
    sameIdentifiers a b = true ↔ unshared a b ≤ repeats b ∧ unshared b a ≤ repeats a := by
  have ha := card_union_le_iff a b
  have hb := card_union_le_iff b a
  rw [Finset.union_comm] at hb
  simp only [sameIdentifiers, together_eq, Bool.and_eq_true, decide_eq_true_eq, ha, hb]
  exact and_comm

theorem inconsistent_iff (a b : List Char) :
    inconsistent a b = true ↔ a ≠ [] ∧ b ≠ [] ∧ Edit a b ∧ sameIdentifiers a b = true := by
  simp only [inconsistent, closeLengths, Bool.and_eq_true, decide_eq_true_eq, oneEdit_iff]
  constructor
  · intro h
    obtain ⟨⟨⟨⟨⟨ha, hb⟩, _⟩, _⟩, hs⟩, he⟩ := h
    exact ⟨ha, hb, he, hs⟩
  · intro h
    obtain ⟨ha, hb, he, hs⟩ := h
    exact ⟨⟨⟨⟨⟨ha, hb⟩, he.length_le, he.symm.length_le⟩, he.ne⟩, hs⟩, he⟩

/-- It makes no difference which name is compared with which, though one pass goes by the shorter of the two and
each name counts its own identifiers. -/
theorem inconsistent_comm (a b : List Char) : inconsistent a b = inconsistent b a := by
  have hedit : Edit a b ↔ Edit b a := ⟨Edit.symm, Edit.symm⟩
  have hsame : sameIdentifiers a b = true ↔ sameIdentifiers b a = true := by
    rw [sameIdentifiers_iff, sameIdentifiers_iff, and_comm]
  rw [Bool.eq_iff_iff, inconsistent_iff, inconsistent_iff, hedit, hsame]
  exact and_left_comm

/-- A flagged pair has the same identifiers, each repeated or not, unless there are some that only one
name has and the other repeats as many of its own, in both directions. -/
theorem flags_only_same_identifiers_iff (a b : List Char) :
    (inconsistent a b = true → ∀ w, w ∈ identifiers a ↔ w ∈ identifiers b) ↔
      a = [] ∨ b = [] ∨ editDistance a b ≠ 1 ∨ (unshared a b = 0 ∧ unshared b a = 0) ∨
        repeats b < unshared a b ∨ repeats a < unshared b a := by
  have hshared : (∀ w, w ∈ identifiers a ↔ w ∈ identifiers b) ↔ unshared a b = 0 ∧ unshared b a = 0 := by
    simp only [unshared_eq_zero_iff, iff_def, forall_and]
  rw [hshared, inconsistent_iff, sameIdentifiers_iff, ← editDistance_eq_one_iff]
  constructor
  · intro h
    by_contra hc
    simp only [not_or, not_not, Nat.not_lt] at hc
    obtain ⟨ha, hb, hd, hu, hab, hba⟩ := hc
    exact hu (h ⟨ha, hb, hd, hab, hba⟩)
  · intro h hflag
    obtain ⟨ha, hb, hd, hab, hba⟩ := hflag
    rcases h with h | h | h | h | h | h
    · exact absurd h ha
    · exact absurd h hb
    · exact absurd hd h
    · exact h
    · omega
    · omega

/-- The second six makes up for the nine. -/
theorem flags_route_six_with_route_nine :
    inconsistent "Route 6 6".toList "Route 6 9".toList = true ∧
      ¬ ∀ w, w ∈ identifiers "Route 6 6".toList ↔ w ∈ identifiers "Route 6 9".toList := by
  refine ⟨by decide, fun h => ?_⟩
  have hNine : ['9'] ∈ identifiers "Route 6 6".toList := (h ['9']).mpr (by decide)
  exact absurd hNine (by decide)

theorem mem_between {α : Type} {front old new back : List α} (hOld : (front ++ old ++ back).Nodup)
    (h : ∀ w ∈ front ++ old ++ back, w ∈ front ++ new ++ back) : ∀ w ∈ old, w ∈ new := by
  intro w hw
  simp only [List.nodup_append, List.mem_append] at hOld h
  have hFront : w ∉ front := fun hf => hOld.1.2.2 w hf w hw rfl
  have hBack : w ∉ back := fun hb => hOld.2.2 w (.inr hw) w hb rfl
  rcases h w (.inl (.inr hw)) with (hf | hn) | hb
  · exact absurd hf hFront
  · exact hn
  · exact absurd hb hBack

theorem eq_of_short_of_nodup {α : Type} {xs ys : List α} (hx : xs.Nodup) (hy : ys.Nodup)
    (h : ∀ w, w ∈ xs ↔ w ∈ ys) (hlen : xs.length ≤ 1) : xs = ys := by
  have hp : xs.Perm ys := (List.perm_ext_iff_of_nodup hx hy).mpr h
  cases xs with
  | nil => exact (List.nil_perm.mp hp).symm
  | cons x xs =>
    have hxs : xs = [] := List.length_eq_zero_iff.mp (by simpa using hlen)
    subst hxs
    exact (List.perm_singleton.mp hp.symm).symm

theorem Edit.identifiers_eq {a b : List Char} (h : Edit a b) (ha : (identifiers a).Nodup)
    (hb : (identifiers b).Nodup) (hs : ∀ w, w ∈ identifiers a ↔ w ∈ identifiers b) :
    identifiers a = identifiers b := by
  obtain ⟨front, old, new, back, hwa, hwb, hshort, _⟩ := h.words_around
  simp only [Names.identifiers_eq, hwa, hwb, List.filter_append] at ha hb hs ⊢
  have hOld : (old.filter isIdentifier).Nodup :=
    (List.nodup_append.mp (List.nodup_append.mp ha).1).2.1
  have hNew : (new.filter isIdentifier).Nodup :=
    (List.nodup_append.mp (List.nodup_append.mp hb).1).2.1
  have hmem : ∀ w, w ∈ old.filter isIdentifier ↔ w ∈ new.filter isIdentifier := fun w =>
    ⟨mem_between ha (fun w => (hs w).mp) w, mem_between hb (fun w => (hs w).mpr) w⟩
  have heq : old.filter isIdentifier = new.filter isIdentifier := by
    rcases hshort with h | h | h
    · rw [h]
    · exact eq_of_short_of_nodup hOld hNew hmem (Nat.le_trans (List.length_filter_le ..) h)
    · exact (eq_of_short_of_nodup hNew hOld (fun w => (hmem w).symm)
        (Nat.le_trans (List.length_filter_le ..) h)).symm
  rw [heq]

theorem Edit.words_spelt {a b : List Char} (h : Edit a b) (hi : identifiers a = identifiers b) :
    ∃ front old new back : List (List Char),
      words a = front ++ old ++ back ∧ words b = front ++ new ++ back ∧
        ∀ w ∈ old ++ new, isIdentifier w = false := by
  obtain ⟨front, old, new, back, hwa, hwb, _, hcommon⟩ := h.words_around
  by_cases hsame : old = new
  · exact ⟨words a, [], [], [], by simp, by simp [hwa, hwb, hsame], by simp⟩
  · have hfilter : old.filter isIdentifier = new.filter isIdentifier := by
      simpa [Names.identifiers_eq, hwa, hwb] using hi
    have hmem : ∀ w, isIdentifier w = true → (w ∈ old ↔ w ∈ new) := fun w hw => by
      have := congrArg (w ∈ ·) hfilter
      simpa [hw] using this
    refine ⟨front, old, new, back, hwa, hwb, fun w hw => ?_⟩
    by_contra hId
    have hIdTrue : isIdentifier w = true := by simpa using hId
    have hiff := hmem w hIdTrue
    rcases List.mem_append.mp hw with h | h
    · exact hsame (hcommon w h (hiff.mp h))
    · exact hsame (hcommon w (hiff.mpr h) h)

/-- Names that repeat no identifier are flagged just if they are one edit apart with the same identifiers
in the same order, and then the edit changes words that are no identifiers. -/
theorem inconsistent_iff_of_nodup {a b : List Char} (ha : (identifiers a).Nodup)
    (hb : (identifiers b).Nodup) :
    (inconsistent a b = true ↔
      a ≠ [] ∧ b ≠ [] ∧ editDistance a b = 1 ∧ identifiers a = identifiers b) ∧
    (inconsistent a b = true → ∃ front old new back : List (List Char),
      words a = front ++ old ++ back ∧ words b = front ++ new ++ back ∧
        ∀ w ∈ old ++ new, isIdentifier w = false) := by
  have hiff : inconsistent a b = true ↔
      a ≠ [] ∧ b ≠ [] ∧ editDistance a b = 1 ∧ identifiers a = identifiers b := by
    rw [inconsistent_iff, sameIdentifiers_iff, repeats_of_nodup ha, repeats_of_nodup hb,
      Nat.le_zero, Nat.le_zero, unshared_eq_zero_iff, unshared_eq_zero_iff, editDistance_eq_one_iff]
    constructor
    · intro h
      obtain ⟨hna, hnb, he, hab, hba⟩ := h
      exact ⟨hna, hnb, he, he.identifiers_eq ha hb fun w => ⟨hab w, hba w⟩⟩
    · intro h
      obtain ⟨hna, hnb, he, hi⟩ := h
      exact ⟨hna, hnb, he, fun w hw => hi ▸ hw, fun w hw => hi ▸ hw⟩
  refine ⟨hiff, fun h => ?_⟩
  obtain ⟨_, _, hd, hi⟩ := hiff.mp h
  exact ((editDistance_eq_one_iff a b).mp hd).words_spelt hi

theorem flags_elm_wood_with_elmwood :
    (identifiers "Road A Elm wood".toList).Nodup ∧ (identifiers "Road A Elmwood".toList).Nodup ∧
      inconsistent "Road A Elm wood".toList "Road A Elmwood".toList = true ∧
      ∃ front old new back : List (List Char),
        words "Road A Elm wood".toList = front ++ old ++ back ∧
          words "Road A Elmwood".toList = front ++ new ++ back ∧
            ∀ w ∈ old ++ new, isIdentifier w = false := by
  have ha : (identifiers "Road A Elm wood".toList).Nodup := by decide
  have hb : (identifiers "Road A Elmwood".toList).Nodup := by decide
  have hd : editDistance "Road A Elm wood".toList "Road A Elmwood".toList = 1 :=
    (editDistance_eq_one_iff _ _).mpr ((oneEdit_iff _ _).mp (by decide))
  obtain ⟨hiff, hspelt⟩ := inconsistent_iff_of_nodup ha hb
  have hflag := hiff.mpr ⟨by decide, by decide, hd, by decide⟩
  exact ⟨ha, hb, hflag, hspelt hflag⟩

open RoadNames.Text

theorem identifiers_append_blank {c : Char} (hc : isBlank c = true) (s t : List Char) :
    identifiers (s ++ c :: t) = identifiers s ++ identifiers t := by
  simp only [identifiers_eq, words_append_blank hc, List.filter_append]

variable {a b a' b' : List Char}

theorem inconsistent_congr (ha : a ≠ []) (hb : b ≠ []) (ha' : a' ≠ []) (hb' : b' ≠ [])
    (hedit : Edit a' b' ↔ Edit a b) (hia : identifiers a' = identifiers a)
    (hib : identifiers b' = identifiers b) : inconsistent a' b' = inconsistent a b := by
  have hsame : sameIdentifiers a' b' = sameIdentifiers a b := by
    simp only [sameIdentifiers, hia, hib]
  rw [Bool.eq_iff_iff, inconsistent_iff, inconsistent_iff, hedit, hsame]
  simp only [ne_eq, ha, hb, ha', hb', not_false_eq_true, true_and]

/-- A context without identifiers makes no difference, whether it stands behind both names or before them, and
whichever blank comes between. -/
theorem inconsistent_in_context {w : List Char} {c : Char} (ha : a ≠ []) (hb : b ≠ [])
    (hc : isBlank c = true) (hw : identifiers w = []) :
    inconsistent (a ++ c :: w) (b ++ c :: w) = inconsistent a b ∧
      inconsistent (w ++ c :: a) (w ++ c :: b) = inconsistent a b := by
  have hbehind (s : List Char) : identifiers (s ++ c :: w) = identifiers s := by
    rw [identifiers_append_blank hc, hw, List.append_nil]
  have hbefore (s : List Char) : identifiers (w ++ c :: s) = identifiers s := by
    rw [identifiers_append_blank hc, hw, List.nil_append]
  constructor
  · exact inconsistent_congr ha hb (by simp) (by simp) (edit_append_right_iff (c :: w) a b) (hbehind a)
      (hbehind b)
  · have hedit : Edit (w ++ c :: a) (w ++ c :: b) ↔ Edit a b := by
      rw [edit_append_left_iff, edit_cons_self_iff]
    exact inconsistent_congr ha hb (by simp) (by simp) hedit (hbefore a) (hbefore b)

/-- The blank that one name has at its end is the blank that comes between as well, so that with the context the
names part one character later. -/
theorem inconsistent_elm_before_meadow :
    isBlank '\u3000' = true ∧ identifiers "Meadow Lane".toList = [] ∧
      inconsistent ("Elm".toList ++ '\u3000' :: "Meadow Lane".toList)
          ("Elm\u3000".toList ++ '\u3000' :: "Meadow Lane".toList) =
        inconsistent "Elm".toList "Elm\u3000".toList ∧
      inconsistent ("Meadow Lane".toList ++ '\u3000' :: "Elm".toList)
          ("Meadow Lane".toList ++ '\u3000' :: "Elm\u3000".toList) =
        inconsistent "Elm".toList "Elm\u3000".toList ∧
      inconsistent "Elm".toList "Elm\u3000".toList = true := by
  have hc : isBlank '\u3000' = true := by decide
  have hw : identifiers "Meadow Lane".toList = [] := by decide
  have ha : "Elm".toList ≠ [] := by decide
  have hb : "Elm\u3000".toList ≠ [] := by decide
  obtain ⟨hbehind, hbefore⟩ := inconsistent_in_context ha hb hc hw
  exact ⟨hc, hw, hbehind, hbefore, by decide⟩

example : inconsistent "Route 6".toList "Route 9".toList = false ∧
    inconsistent "Route 6 9".toList "Route 9 9".toList = true := by decide

end RoadNames.Names
