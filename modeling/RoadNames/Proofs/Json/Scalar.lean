import Mathlib.Data.List.TakeWhile
import Mathlib.Data.Nat.Digits.Defs
import RoadNames.Proofs.Geography
import RoadNames.Proofs.Json.Reading
set_option autoImplicit false

namespace RoadNames

namespace Decimal

/-- There is one NaN besides the infinities, as far as doubles can be told apart. -/
theorem eq_special_of_binary?_eq_none {x : Float} (h : binary? x = none) :
    x = 0 / 0 ∨ x = 1 / 0 ∨ x = -1 / 0 := by
  have hfield := exponentBits_of_binary?_eq_none h
  have hexponent : @Float.Model.UnpackedFloat.unpackExponent .binary64 x.toBits.toBitVec = -1#_ :=
    (BitVec.toNat_inj).mp ((toNat_unpackExponent x.toBits.toBitVec).trans hfield)
  have hlt : x.toBits.toNat < 2 ^ 64 := x.toBits.toNat_lt
  by_cases hmantissa : x.toBits.toNat % fullSignificand = 0
  · have hinf : (1 / 0 : Float).toBits.toNat = specialExponent * fullSignificand := by decide +kernel
    have hneg : (-1 / 0 : Float).toBits.toNat = signBit + specialExponent * fullSignificand := by decide +kernel
    have hbits : x.toBits.toNat = specialExponent * fullSignificand ∨
        x.toBits.toNat = signBit + specialExponent * fullSignificand := by
      simp only [exponentBits, fullSignificand, specialExponent, signBit] at *
      omega
    rcases hbits with hbits | hbits
    · exact .inr (.inl (eq_of_toBits_eq (UInt64.toNat_inj.mp (hbits.trans hinf.symm))))
    · exact .inr (.inr (eq_of_toBits_eq (UInt64.toNat_inj.mp (hbits.trans hneg.symm))))
  · have hnan : @Float.Model.UnpackedFloat.unpackMantissa .binary64 x.toBits.toBitVec ≠ 0#_ := by
      intro hzero
      have hmod := toNat_unpackMantissa x.toBits.toBitVec
      rw [hzero] at hmod
      exact hmantissa hmod.symm
    have hbits := x.toModel.valid.eq_packedNaN hexponent hnan
    have hundefined : (0 / 0 : Float).toBits.toBitVec = Float.Model.UnpackedFloat.packedNaN .binary64 := by decide +kernel
    exact .inl (eq_of_toBits_eq (UInt64.toBitVec_inj.mp (hbits.trans hundefined.symm)))

def isNumberChar (c : Char) : Bool := isPlainDigit c || c = '-' || c = '+' || c = '.' || c = 'e'

theorem isPlainDigit_of_mem_natText {n : Nat} {c : Char} (h : c ∈ natText n) : isPlainDigit c = true :=
  Nat.isDigit_of_mem_toDigits (by decide) (by decide) h

theorem isNumberChar_of_mem_natText {n : Nat} {c : Char} (h : c ∈ natText n) : isNumberChar c = true := by
  simp [isNumberChar, isPlainDigit_of_mem_natText h]

theorem isNumberChar_of_mem_intText {n : Int} {c : Char} (h : c ∈ intText n) : isNumberChar c = true := by
  unfold intText at h
  split at h
  · rcases List.mem_cons.mp h with rfl | h
    · decide
    · exact isNumberChar_of_mem_natText h
  · exact isNumberChar_of_mem_natText h

theorem isNumberChar_of_mem_exponentText {e : Int} {c : Char} (h : c ∈ exponentText e) :
    isNumberChar c = true := by
  unfold exponentText at h
  rcases List.mem_cons.mp h with rfl | h
  · split <;> decide
  · split at h
    · rcases List.mem_cons.mp h with rfl | h
      · decide
      · exact isNumberChar_of_mem_natText h
    · exact isNumberChar_of_mem_natText h

theorem isNumberChar_of_mem_layDigits {ds : List Char} {point : Int}
    (hds : ∀ c ∈ ds, isNumberChar c = true) {c : Char} (h : c ∈ layDigits ds point) :
    isNumberChar c = true := by
  have hzero : isNumberChar '0' = true := by decide
  have hpoint : isNumberChar '.' = true := by decide
  unfold layDigits at h
  split at h
  · split at h
    · simp only [List.mem_cons, List.mem_append, List.mem_replicate] at h
      rcases h with rfl | rfl | ⟨_, rfl⟩ | h
      exacts [hzero, hpoint, hzero, hds c h]
    · split at h
      · simp only [List.mem_append, List.mem_replicate, List.mem_cons, List.not_mem_nil, or_false] at h
        rcases h with (h | ⟨_, rfl⟩) | rfl | rfl
        exacts [hds c h, hzero, hpoint, hzero]
      · simp only [List.mem_append, List.mem_cons] at h
        rcases h with h | rfl | h
        exacts [hds c (List.mem_of_mem_take h), hpoint, hds c (List.mem_of_mem_drop h)]
  · simp only [List.mem_append, List.mem_cons] at h
    rcases h with h | rfl | h
    · split at h
      · cases h
      · exact hds c h
      · simp only [List.mem_cons] at h
        rcases h with rfl | rfl | h
        exacts [hds _ (by simp), hpoint, hds c (by simp [h])]
    · decide
    · exact isNumberChar_of_mem_exponentText h

theorem isNumberChar_of_mem_magnitudeText {b : Binary} {c : Char} (h : c ∈ magnitudeText b) :
    isNumberChar c = true := by
  unfold magnitudeText at h
  split at h
  · simp only [List.mem_cons, List.not_mem_nil, or_false] at h
    rcases h with rfl | rfl | rfl <;> decide
  · refine isNumberChar_of_mem_layDigits (fun d hd => ?_) h
    have hkept := List.mem_reverse.mp hd
    exact isNumberChar_of_mem_natText (List.mem_reverse.mp ((List.dropWhile_sublist _).subset hkept))

theorem isNumberChar_of_mem_floatText {special : Special} {x : Float} {b : Binary} (hb : binary? x = some b)
    {c : Char} (h : c ∈ floatText special x) : isNumberChar c = true := by
  unfold floatText at h
  rw [hb] at h
  dsimp only at h
  split at h
  · rcases List.mem_cons.mp h with rfl | h
    · decide
    · exact isNumberChar_of_mem_magnitudeText h
  · exact isNumberChar_of_mem_magnitudeText h

theorem natOf_natText (n : Nat) : natOf 0 (natText n) = n := by
  have h := Nat.ofDigitChars_toDigits (b := 10) (n := n) (by decide) (by decide)
  simpa [Nat.ofDigitChars_eq_foldl, natOf, natText] using h

theorem natText_head (n : Nat) :
    ∃ c ds, natText n = c :: ds ∧ isPlainDigit c = true ∧ (c = '0' → ds = []) := by
  induction n using Nat.strongRecOn with
  | ind n ih =>
    by_cases hn : n < 10
    · have hdigit : ∀ m < 10, isPlainDigit m.digitChar = true := by decide
      exact ⟨n.digitChar, [], Nat.toDigits_of_lt_base hn, hdigit n hn, fun _ => rfl⟩
    · obtain ⟨c, ds, htext, hdigit, hzero⟩ := ih (n / 10) (by omega)
      have hmore : natText n = natText (n / 10) ++ [Nat.digitChar (n % 10)] :=
        Nat.toDigits_of_base_le (by decide) (by omega)
      refine ⟨c, ds ++ [Nat.digitChar (n % 10)], by rw [hmore, htext]; rfl, hdigit, fun hc => ?_⟩
      -- What is left without the last digit is not zero.
      have hvalue := natOf_natText (n / 10)
      rw [htext, hc, hzero hc] at hvalue
      have hnone : n / 10 = 0 := hvalue.symm
      omega

theorem lt_pow_length_natText (n : Nat) : n < 10 ^ (natText n).length := by
  induction n using Nat.strongRecOn with
  | ind n ih =>
    by_cases hn : n < 10
    · have htext : natText n = [n.digitChar] := Nat.toDigits_of_lt_base hn
      simpa [htext] using hn
    · have hmore : natText n = natText (n / 10) ++ [Nat.digitChar (n % 10)] :=
        Nat.toDigits_of_base_le (by decide) (by omega)
      have hrest := ih (n / 10) (by omega)
      rw [hmore, List.length_append, List.length_singleton, Nat.pow_succ]
      omega

theorem isShort_iff (n : Int) : isShort n = true ↔ n.natAbs < 10 ^ digitLimit := by
  rw [isShort, decide_eq_true_iff]
  constructor
  · exact fun h => (lt_pow_length_natText n.natAbs).trans_le (Nat.pow_le_pow_right (by decide) h)
  · exact Nat.toDigits_length 10 n.natAbs digitLimit (by decide)

end Decimal

namespace Json

open Decimal

theorem readDigits?_natText (n : Nat) : readDigits? (natText n) = some (natText n, []) := by
  obtain ⟨c, ds, htext, hdigit, hzero⟩ := natText_head n
  have hall : ∀ d ∈ c :: ds, isPlainDigit d = true := fun d hd => isPlainDigit_of_mem_natText (htext ▸ hd)
  rw [htext]
  by_cases hc : c = '0'
  · rw [hzero hc, hc]
    rfl
  · unfold readDigits?
    split
    case h_1 heq => exact absurd (List.cons.inj heq).1 hc
    case h_2 => simp [List.takeWhile_eq_self_iff.mpr hall, List.dropWhile_eq_nil_iff.mpr hall]

theorem readNumber_natText (negative : Bool) (n : Nat) :
    readNumber negative (natText n) = if (natText n).length ≤ digitLimit then .ok (int (negateInt negative n), [])
      else .error (.longInteger (natText n).length) := by
  simp [readNumber, readDigits?_natText, readFraction, readExponent, natOf_natText]

theorem readConstant?_digit {c : Char} (h : isPlainDigit c = true) (s : List Char) :
    readConstant? (c :: s) = none ∧ readConstant? ('-' :: c :: s) = none := by
  have hne : ∀ d, isPlainDigit d = false → d ≠ c := by
    rintro d hd rfl
    rw [hd] at h
    cases h
  constructor <;>
    simp [readConstant?, constants, after?, hne 'n' (by decide), hne 't' (by decide), hne 'f' (by decide),
      hne 'N' (by decide), hne 'I' (by decide), hne '-' (by decide)]

theorem readScalar_intText (n : Int) :
    readScalar (intText n) = if isShort n then .ok (int n, []) else .error (.longInteger (natText n.natAbs).length) := by
  obtain ⟨c, ds, htext, hdigit, _⟩ := natText_head n.natAbs
  obtain ⟨hplain, hminus⟩ := readConstant?_digit hdigit ds
  unfold intText isShort
  split
  case isTrue hneg =>
    rw [htext, readScalar_minus hminus, ← htext, readNumber_natText]
    simp only [negateInt, ↓reduceIte, decide_eq_true_eq]
    rw [show -(n.natAbs : Int) = n by omega]
  case isFalse hneg =>
    have hc : c ≠ '-' := by
      rintro rfl
      cases hdigit
    rw [htext, readScalar_plain hc hplain, ← htext, readNumber_natText]
    simp only [negateInt, Bool.false_eq_true, ↓reduceIte, decide_eq_true_eq]
    rw [show (n.natAbs : Int) = n by omega]

end Json

end RoadNames
