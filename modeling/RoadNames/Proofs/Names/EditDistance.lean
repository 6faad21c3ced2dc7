import Mathlib.Order.Bounds.Basic
import RoadNames.Names
set_option autoImplicit false

namespace RoadNames.Names

variable {α : Type}

/-- One character is inserted, deleted or replaced by another. -/
inductive Edit : List α → List α → Prop where
  | insert (y : α) (s : List α) : Edit s (y :: s)
  | delete (x : α) (s : List α) : Edit (x :: s) s
  | substitute {x y : α} (h : x ≠ y) (s : List α) : Edit (x :: s) (y :: s)
  | keep (c : α) {a b : List α} (h : Edit a b) : Edit (c :: a) (c :: b)

theorem Edit.symm {a b : List α} (h : Edit a b) : Edit b a := by
  induction h with
  | insert y s => exact .delete y s
  | delete x s => exact .insert x s
  | substitute h s => exact .substitute h.symm s
  | keep c _ ih => exact .keep c ih

theorem Edit.ne {a b : List α} (h : Edit a b) : a ≠ b := by
  induction h with
  | insert y s => exact fun he => by simpa using congrArg List.length he
  | delete x s => exact fun he => by simpa using congrArg List.length he
  | substitute h s => exact fun he => h (List.cons.inj he).1
  | keep c _ ih => exact fun he => ih (List.cons.inj he).2

theorem Edit.length_le {a b : List α} (h : Edit a b) : a.length ≤ b.length + 1 := by
  induction h with
  | insert y s => simp only [List.length_cons]; omega
  | delete x s => simp only [List.length_cons]; omega
  | substitute _ s => simp only [List.length_cons]; omega
  | keep c _ ih => simp only [List.length_cons]; omega

theorem edit_cons_self_iff (x : α) (a b : List α) : Edit (x :: a) (x :: b) ↔ Edit a b := by
  constructor
  · intro h
    cases h with
    | insert => exact .insert x a
    | delete => exact .delete x b
    | substitute h => exact absurd rfl h
    | keep _ h => exact h
  · exact .keep x

theorem edit_cons_ne_iff {x y : α} (hxy : x ≠ y) (a b : List α) :
    Edit (x :: a) (y :: b) ↔ x :: a = b ∨ a = y :: b ∨ a = b := by
  constructor
  · intro h
    cases h with
    | insert => exact .inl rfl
    | delete => exact .inr (.inl rfl)
    | substitute => exact .inr (.inr rfl)
    | keep => exact absurd rfl hxy
  · intro h
    rcases h with h | h | h
    · subst h; exact .insert y (x :: a)
    · subst h; exact .delete x (y :: b)
    · subst h; exact .substitute hxy a

/-- Between equal texts before and after it, an edit replaces at most one character by at most one. -/
theorem Edit.around {a b : List α} (h : Edit a b) :
    ∃ (p s : List α) (x y : Option α), x ≠ y ∧ a = p ++ (x.toList ++ s) ∧ b = p ++ (y.toList ++ s) := by
  induction h with
  | insert y s => exact ⟨[], s, none, some y, by simp, rfl, rfl⟩
  | delete x s => exact ⟨[], s, some x, none, by simp, rfl, rfl⟩
  | @substitute x y h s => exact ⟨[], s, some x, some y, by simpa using h, rfl, rfl⟩
  | keep c _ ih =>
    obtain ⟨p, s, x, y, hxy, ha, hb⟩ := ih
    exact ⟨c :: p, s, x, y, hxy, by rw [ha, List.cons_append], by rw [hb, List.cons_append]⟩

theorem edit_append_left_iff (p a b : List α) : Edit (p ++ a) (p ++ b) ↔ Edit a b := by
  induction p with
  | nil => exact Iff.rfl
  | cons c p ih => exact (edit_cons_self_iff c (p ++ a) (p ++ b)).trans ih

theorem edit_of_around {x y : Option α} (h : x ≠ y) (p s : List α) :
    Edit (p ++ (x.toList ++ s)) (p ++ (y.toList ++ s)) := by
  rw [edit_append_left_iff]
  cases x with
  | none =>
    cases y with
    | none => exact absurd rfl h
    | some d => exact .insert d s
  | some c =>
    cases y with
    | none => exact .delete c s
    | some d => exact .substitute (fun hcd => h (congrArg some hcd)) s

theorem Edit.reverse {a b : List α} (h : Edit a b) : Edit a.reverse b.reverse := by
  obtain ⟨p, s, x, y, hxy, rfl, rfl⟩ := h.around
  have hturned (z : Option α) : (p ++ (z.toList ++ s)).reverse = s.reverse ++ (z.toList ++ p.reverse) := by
    cases z <;> simp
  rw [hturned, hturned]
  exact edit_of_around hxy s.reverse p.reverse

theorem edit_reverse_iff (a b : List α) : Edit a.reverse b.reverse ↔ Edit a b :=
  ⟨fun h => by simpa using h.reverse, Edit.reverse⟩

theorem edit_append_right_iff (s a b : List α) : Edit (a ++ s) (b ++ s) ↔ Edit a b := by
  rw [← edit_reverse_iff (a ++ s), List.reverse_append, List.reverse_append, edit_append_left_iff,
    edit_reverse_iff]

inductive Edits : Nat → List α → List α → Prop where
  | refl (a : List α) : Edits 0 a a
  | step {n : Nat} {a b c : List α} (h : Edit a b) (t : Edits n b c) : Edits (n + 1) a c

theorem Edits.keep (c : α) {n : Nat} {a b : List α} (h : Edits n a b) : Edits n (c :: a) (c :: b) := by
  induction h with
  | refl a => exact .refl (c :: a)
  | step h _ ih => exact .step (.keep c h) ih

theorem Edits.eq_of_zero {a b : List α} (h : Edits 0 a b) : a = b := by cases h; rfl

theorem Edits.edit_of_one {a b : List α} (h : Edits 1 a b) : Edit a b := by
  cases h with
  | step h t => cases t.eq_of_zero; exact h

theorem edits_min {m n : Nat} {a b : List α} (hm : Edits m a b) (hn : Edits n a b) :
    Edits (min m n) a b := by
  rcases Nat.le_total m n with h | h
  · rwa [Nat.min_eq_left h]
  · rwa [Nat.min_eq_right h]

theorem edits_insert_all (b : List α) : Edits b.length [] b := by
  induction b with
  | nil => exact .refl []
  | cons y b ih => exact .step (.insert y []) (ih.keep y)

theorem edits_delete_all (a : List α) : Edits a.length a [] := by
  induction a with
  | nil => exact .refl []
  | cons x a ih => exact .step (.delete x a) ih

variable [DecidableEq α]

@[simp] theorem editDistance_nil_left (b : List α) : editDistance [] b = b.length := by
  rw [editDistance]

@[simp] theorem editDistance_nil_right (a : List α) : editDistance a [] = a.length := by
  cases a <;> simp [editDistance]

theorem editDistance_cons_cons (x y : α) (a b : List α) :
    editDistance (x :: a) (y :: b) =
      min (min (editDistance a (y :: b) + 1) (editDistance (x :: a) b + 1))
        (editDistance a b + if x = y then 0 else 1) := by
  rw [editDistance]

@[simp] theorem editDistance_self (a : List α) : editDistance a a = 0 := by
  induction a with
  | nil => simp
  | cons x a ih => simp [editDistance_cons_cons, ih]

theorem edits_editDistance (a b : List α) : Edits (editDistance a b) a b := by
  fun_induction editDistance a b with
  | case1 b => exact edits_insert_all b
  | case2 a _ => exact edits_delete_all a
  | case3 x a y b ihDelete ihInsert ihKeep =>
    have hDelete : Edits (editDistance a (y :: b) + 1) (x :: a) (y :: b) :=
      .step (.delete x a) ihDelete
    have hInsert : Edits (editDistance (x :: a) b + 1) (x :: a) (y :: b) :=
      .step (.insert y (x :: a)) (ihInsert.keep y)
    have hKeep : Edits (editDistance a b + if x = y then 0 else 1) (x :: a) (y :: b) := by
      by_cases hxy : x = y
      · subst hxy
        simpa using ihKeep.keep x
      · simpa [hxy] using Edits.step (.substitute hxy a) (ihKeep.keep y)
    exact edits_min (edits_min hDelete hInsert) hKeep

theorem editDistance_cons_le (x : α) (a b : List α) :
    editDistance (x :: a) b ≤ editDistance a b + 1 := by
  cases b with
  | nil => simp
  | cons y b => rw [editDistance_cons_cons]; omega

theorem editDistance_le_cons (x : α) (a b : List α) :
    editDistance a b ≤ editDistance (x :: a) b + 1 := by
  induction b with
  | nil => simp; omega
  | cons y b ih =>
    have hKeep : editDistance a (y :: b) ≤ editDistance a b + 1 := by
      cases a with
      | nil => simp
      | cons z a => rw [editDistance_cons_cons]; omega
    rw [editDistance_cons_cons x y]
    omega

theorem Edit.editDistance_le {a b : List α} (h : Edit a b) (c : List α) :
    editDistance a c ≤ editDistance b c + 1 := by
  induction h generalizing c with
  | insert y s => exact editDistance_le_cons y s c
  | delete x s => exact editDistance_cons_le x s c
  | @substitute x y hxy s =>
    induction c with
    | nil => simp
    | cons z c ih =>
      rw [editDistance_cons_cons x, editDistance_cons_cons y]
      split <;> split <;> omega
  | @keep k a b hab ih =>
    induction c with
    | nil =>
      have hle := hab.length_le
      simp only [editDistance_nil_right, List.length_cons]
      omega
    | cons z c ihc =>
      have hz := ih (z :: c)
      have hc := ih c
      rw [editDistance_cons_cons k z a, editDistance_cons_cons k z b]
      omega

theorem Edits.editDistance_le {n : Nat} {a b : List α} (h : Edits n a b) : editDistance a b ≤ n := by
  induction h with
  | refl a => simp
  | @step n a b c h _ ih =>
    calc
      editDistance a c ≤ editDistance b c + 1 := h.editDistance_le c
      _ ≤ n + 1 := Nat.add_le_add_right ih 1

/-- The recursion computes the least number of single edits. -/
theorem isLeast_editDistance (a b : List α) : IsLeast {n | Edits n a b} (editDistance a b) :=
  ⟨edits_editDistance a b, fun _ h => h.editDistance_le⟩

theorem editDistance_eq_zero_iff (a b : List α) : editDistance a b = 0 ↔ a = b := by
  constructor
  · intro h
    have he := edits_editDistance a b
    rw [h] at he
    exact he.eq_of_zero
  · intro h
    rw [h, editDistance_self]

theorem editDistance_eq_one_iff (a b : List α) : editDistance a b = 1 ↔ Edit a b := by
  constructor
  · intro h
    have he := edits_editDistance a b
    rw [h] at he
    exact he.edit_of_one
  · intro h
    have hle : editDistance a b ≤ 1 := Edits.editDistance_le (.step h (.refl b))
    have hne : editDistance a b ≠ 0 := fun h0 => h.ne ((editDistance_eq_zero_iff a b).mp h0)
    omega

instance (a b : List α) : Decidable (Edit a b) :=
  decidable_of_iff (editDistance a b = 1) (editDistance_eq_one_iff a b)

theorem oneSubstitution_iff {a b : List α} (h : a.length = b.length) :
    oneSubstitution a b = true ↔ Edit a b := by
  induction a generalizing b with
  | nil =>
    cases b with
    | nil => exact iff_of_false Bool.false_ne_true fun he => he.ne rfl
    | cons => simp at h
  | cons x a ih =>
    cases b with
    | nil => simp at h
    | cons y b =>
      have hab : a.length = b.length := by simpa using h
      by_cases hxy : x = y
      · subst hxy
        rw [edit_cons_self_iff, ← ih hab]
        simp [oneSubstitution]
      · have hInsert : x :: a ≠ b := fun he => by simp [← he] at hab
        have hDelete : a ≠ y :: b := fun he => by simp [he] at hab
        rw [edit_cons_ne_iff hxy]
        simp [oneSubstitution, hxy, hInsert, hDelete]

theorem oneInsertion?_passed {a b : List α} (h : a.length = b.length) :
    oneInsertion? true a b = some (decide (a = b)) := by
  induction a generalizing b with
  | nil =>
    have hb : b = [] := List.length_eq_zero_iff.mp h.symm
    simp [oneInsertion?, hb]
  | cons x a ih =>
    cases b with
    | nil => simp at h
    | cons y b =>
      have hab : a.length = b.length := by simpa using h
      by_cases hxy : x = y
      · simp [oneInsertion?, hxy, ih hab]
      · simp [oneInsertion?, hxy]

theorem oneInsertion?_eq {a b : List α} (h : a.length + 1 = b.length) :
    oneInsertion? false a b = some (decide (Edit a b)) := by
  induction a generalizing b with
  | nil =>
    obtain ⟨y, rfl⟩ := List.length_eq_one_iff.mp h.symm
    simp [oneInsertion?, Edit.insert y []]
  | cons x a ih =>
    cases b with
    | nil => simp at h
    | cons y b =>
      have hab : a.length + 1 = b.length := by simpa using h
      by_cases hxy : x = y
      · subst hxy
        simp [oneInsertion?, ih hab, edit_cons_self_iff]
      · -- the texts part here, and the longer one has a character left to go on with
        cases b with
        | nil => simp at hab
        | cons z b =>
          have hlen : a.length = b.length := by simpa using hab
          have hDelete : a ≠ y :: z :: b := fun he => by simp [he] at hlen; omega
          have hSubstitute : a ≠ z :: b := fun he => by simp [he] at hlen
          have hEdit : Edit (x :: a) (y :: z :: b) ↔ x = z ∧ a = b := by
            rw [edit_cons_ne_iff hxy]
            simp [hDelete, hSubstitute]
          simp only [oneInsertion?, hxy, ↓reduceIte, Bool.false_eq_true, hEdit]
          by_cases hxz : x = z
          · simp [hxz, oneInsertion?_passed hlen]
          · simp [hxz]

theorem oneEdit?_eq (a b : List α) : oneEdit? a b = some (decide (Edit a b)) := by
  unfold oneEdit?
  split
  case isTrue h => simp [← oneSubstitution_iff h]
  case isFalse h =>
    split
    case isTrue hb => exact oneInsertion?_eq hb
    case isFalse hb =>
      split
      case isTrue ha =>
        rw [oneInsertion?_eq ha]
        simp only [Option.some.injEq, decide_eq_decide]
        exact ⟨Edit.symm, Edit.symm⟩
      case isFalse ha =>
        -- lengths that differ by more than one are more than one edit apart
        have hEdit : ¬ Edit a b := fun he => by
          have hab := he.length_le
          have hba := he.symm.length_le
          omega
        simp [hEdit]

theorem oneEdit_iff (a b : List α) : oneEdit a b = true ↔ Edit a b := by
  simp [oneEdit, oneEdit?_eq]

/-- The recursion gives the least number of single edits between two texts. The scan has an answer for
any two texts, and the answer is yes exactly when this number is one. -/
theorem oneEdit_decides_distance_one (a b : List α) :
    IsLeast {n | Edits n a b} (editDistance a b) ∧
      oneEdit? a b = some (oneEdit a b) ∧
        (oneEdit a b = true ↔ editDistance a b = 1) := by
  refine ⟨isLeast_editDistance a b, ?_, ?_⟩
  · simp [oneEdit, oneEdit?_eq]
  · rw [oneEdit_iff, editDistance_eq_one_iff]

end RoadNames.Names
