import Mathlib.Data.List.Nodup
import Mathlib.Data.List.Sort
import Mathlib.Order.Lattice
import RoadNames.Json.Value
set_option autoImplicit false

namespace RoadNames

theorem pairwise_lt_mergeSort {α κ : Type} [LinearOrder κ] (key : α → κ) {le : α → α → Bool}
    (hle : ∀ a b, le a b = true ↔ key a ≤ key b) {xs : List α} (h : (xs.map key).Nodup) :
    ((xs.mergeSort le).map key).Pairwise (· < ·) := by
  have hsorted : (xs.mergeSort le).Pairwise fun a b => key a ≤ key b := by
    refine (List.pairwise_mergeSort (fun a b c => ?_) (fun a b => ?_) xs).imp (hle _ _).mp
    · rw [hle, hle, hle]
      exact le_trans
    · rw [Bool.or_eq_true, hle, hle]
      exact le_total (key a) (key b)
  have hne : (xs.mergeSort le).Pairwise fun a b => key a ≠ key b :=
    List.pairwise_map.mp (((List.mergeSort_perm xs le).map key).nodup_iff.mpr h)
  exact List.pairwise_map.mpr ((hsorted.and hne).imp fun hab => lt_of_le_of_ne hab.1 hab.2)

theorem eq_of_pairwise_lt {α κ : Type} [LinearOrder κ] (key : α → κ) {xs ys : List α}
    (hxs : (xs.map key).Pairwise (· < ·)) (hys : (ys.map key).Pairwise (· < ·))
    (hmem : ∀ a, a ∈ xs ↔ a ∈ ys) : xs = ys := by
  have hirrefl : Std.Irrefl fun a b : α => key a < key b := ⟨fun a => lt_irrefl (key a)⟩
  have hantisymm : Std.Antisymm fun a b : α => key a < key b :=
    ⟨fun a b hab hba => absurd hba (lt_asymm hab)⟩
  exact (List.pairwise_map.mp hxs).eq_of_mem_iff (List.pairwise_map.mp hys) hmem

namespace Text

theorem isDigit_of_mem_repr {n : Nat} {c : Char} (h : c ∈ n.repr.toList) : c.isDigit = true := by
  rw [Nat.toList_repr] at h
  exact Nat.isDigit_of_mem_toDigits (by decide) (by decide) h

theorem eq_of_repr_eq {m n : Nat} (h : m.repr = n.repr) : m = n := by
  have hdigits : Nat.toDigits 10 m = Nat.toDigits 10 n := by
    rw [← Nat.toList_repr, ← Nat.toList_repr, h]
  simpa using congrArg (fun digits => Nat.ofDigitChars 10 digits 0) hdigits

theorem mem_toString {n : Int} {c : Char} (h : c ∈ (toString n).toList) : c = '-' ∨ c.isDigit = true := by
  cases n with
  | ofNat m => exact .inr (isDigit_of_mem_repr h)
  | negSucc m =>
    have hneg : (toString (Int.negSucc m)).toList = '-' :: (m + 1).repr.toList := String.toList_append
    rw [hneg, List.mem_cons] at h
    exact h.imp_right isDigit_of_mem_repr

theorem toString_injective {m n : Int} (h : toString m = toString n) : m = n := by
  have hsign : ∀ a b : Nat, (Int.ofNat a).repr ≠ (Int.negSucc b).repr := by
    intro a b hab
    have hminus : '-' ∈ (Int.negSucc b).repr.toList := by simp [Int.repr]
    rw [← hab] at hminus
    exact absurd (isDigit_of_mem_repr hminus) (by decide)
  cases m with
  | ofNat a =>
    cases n with
    | ofNat b => exact congrArg Int.ofNat (eq_of_repr_eq h)
    | negSucc b => exact absurd h (hsign a b)
  | negSucc a =>
    cases n with
    | ofNat b => exact absurd h.symm (hsign b a)
    | negSucc b =>
      have hdigits : (a + 1).repr = (b + 1).repr := (String.append_right_inj "-").mp h
      rw [Nat.succ.inj (eq_of_repr_eq hdigits)]

theorem eq_of_toString_colon {m n : Int} {x y : List Char}
    (h : (toString m).toList ++ ':' :: x = (toString n).toList ++ ':' :: y) : m = n := by
  have hfront : ∀ (k : Int) (z : List Char),
      ((toString k).toList ++ ':' :: z).takeWhile (· ≠ ':') = (toString k).toList := by
    intro k z
    rw [List.takeWhile_append_of_pos]
    · simp
    · intro c hc
      rcases mem_toString hc with rfl | hdigit
      · decide
      · exact decide_eq_true fun hcolon => by rw [hcolon] at hdigit; exact absurd hdigit (by decide)
  have hdigits := congrArg (List.takeWhile (· ≠ ':')) h
  rw [hfront, hfront] at hdigits
  exact toString_injective (String.toList_inj.mp hdigits)

end Text

end RoadNames
