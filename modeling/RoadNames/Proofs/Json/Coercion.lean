import RoadNames.Json.Value
import RoadNames.Proofs.Decimal.Magnitude
import RoadNames.Proofs.Decimal.Numeral
set_option autoImplicit false

namespace RoadNames.Json

open Decimal Text

def IsInfinity : Json → Prop
  | float x => isFinite x = false ∧ x.isNaN = false
  | _ => False

def BeyondDoubles : Json → Prop
  | int n => isFinite (floatOfInt n) = false
  | _ => False

theorem truncate?_eq_none_iff (x : Float) : truncate? x = none ↔ isFinite x = false := by
  rw [← Bool.not_eq_true, isFinite_iff_binary?]
  simp [truncate?]

theorem toInt_eq_overflow_iff (v : Json) : v.toInt = .error .overflow ↔ v.IsInfinity := by
  cases v with
  | float x =>
    cases h : truncate? x with
    | some n =>
      have hfinite : isFinite x ≠ false := fun hx => by simp [(truncate?_eq_none_iff x).mpr hx] at h
      simp [toInt, h, IsInfinity, hfinite]
    | none =>
      have hx := (truncate?_eq_none_iff x).mp h
      cases x.isNaN <;> simp [toInt, h, IsInfinity, hx]
  | str s => cases h : readInt? digitValue? s.toList <;> simp [toInt, IsInfinity, h]
  | _ => simp [toInt, IsInfinity]

theorem toFloat_eq_overflow_iff (v : Json) : v.toFloat = .error .overflow ↔ v.BeyondDoubles := by
  cases v with
  | int n => cases h : isFinite (floatOfInt n) <;> simp [toFloat, BeyondDoubles, h]
  | str s => cases h : readFloat? digitValue? s.toList <;> simp [toFloat, BeyondDoubles, h]
  | _ => simp [toFloat, BeyondDoubles]

/-- The value denotes the integer: it is this integer, or the double that is equal to it, or a text that writes it. -/
def Denotes : Json → Int → Prop
  | int m, n => m = n
  | float x, n => ∃ b, binary? x = some b ∧ b.value = n
  | str s, n => Writes s.toList n
  | _, _ => False

/-- The value denotes no integer and is read as one all the same: a truth value, or a double with a fraction. -/
def IsMisread : Json → Prop
  | bool _ => True
  | float x => ∃ b, binary? x = some b ∧ ∀ n : Int, b.value ≠ n
  | _ => False

variable {v : Json} {n : Int}

theorem toInt_of_denotes (h : v.Denotes n) : v.toInt = .ok n := by
  cases v with
  | int m => exact congrArg Except.ok h
  | float x =>
    obtain ⟨b, hb, hvalue⟩ := h
    rw [toInt, truncate?_of_value hb hvalue]
  | str s => rw [toInt, (readInt?_eq_some_iff s.toList n).mpr h]
  | _ => exact h.elim

theorem IsMisread.not_denotes (h : v.IsMisread) (n : Int) : ¬ v.Denotes n := by
  cases v with
  | bool => exact not_false
  | float x =>
    obtain ⟨b, hb, hnone⟩ := h
    rintro ⟨b', hb', hvalue⟩
    obtain rfl := Option.some.inj (hb.symm.trans hb')
    exact hnone n hvalue
  | _ => exact h.elim

theorem IsMisread.exists_toInt (h : v.IsMisread) : ∃ n, v.toInt = .ok n := by
  cases v with
  | bool b => exact ⟨_, rfl⟩
  | float x =>
    obtain ⟨b, hb, _⟩ := h
    exact ⟨_, by rw [toInt, truncate?, hb]; rfl⟩
  | _ => exact h.elim

theorem denotes_or_isMisread (h : v.toInt = .ok n) : v.Denotes n ∨ v.IsMisread := by
  cases v with
  | int m => exact .inl (Except.ok.inj h)
  | bool b => exact .inr trivial
  | float x =>
    cases hb : binary? x with
    | none => simp [toInt, truncate?, hb] at h
    | some b =>
      by_cases hwhole : ∃ m : Int, b.value = m
      · obtain ⟨m, hm⟩ := hwhole
        have hread : (float x).toInt = .ok m := toInt_of_denotes ⟨b, hb, hm⟩
        obtain rfl := Except.ok.inj (h.symm.trans hread)
        exact .inl ⟨b, hb, hm⟩
      · exact .inr ⟨b, hb, not_exists.mp hwhole⟩
  | str s =>
    cases hs : readInt? digitValue? s.toList with
    | none => simp [toInt, hs] at h
    | some m =>
      obtain rfl : m = n := by simpa [toInt, hs] using h
      exact .inl ((readInt?_eq_some_iff _ _).mp hs)
  | _ => cases h

theorem IsInfinity.not_denotes (h : v.IsInfinity) (n : Int) : ¬ v.Denotes n := by
  intro hdenotes
  have hread := toInt_of_denotes hdenotes
  rw [(toInt_eq_overflow_iff v).mpr h] at hread
  cases hread

theorem exists_toInt_error (hnone : ∀ n, ¬ v.Denotes n) (h : ¬ v.IsMisread) : ∃ e, v.toInt = .error e := by
  cases hv : v.toInt with
  | error e => exact ⟨e, rfl⟩
  | ok n => exact ((denotes_or_isMisread hv).elim (hnone n) h).elim

theorem toFloat_singleton (c : Char) :
    (str (String.singleton c)).toFloat.toOption = (digitValue? c).map fun d => nearestFloat d 1 0 := by
  rw [toFloat, String.toList_singleton, readFloat?_singleton]
  cases digitValue? c <;> rfl

end RoadNames.Json
