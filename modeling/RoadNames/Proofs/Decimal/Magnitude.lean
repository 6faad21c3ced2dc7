import Mathlib.Data.Rat.Cast.Order
import RoadNames.Proofs.Decimal.Rounding
set_option autoImplicit false

namespace RoadNames.Decimal

open Float.Model Float.Model.UnpackedFloat

def Binary.magnitude (b : Binary) : ℚ := b.significand * 2 ^ b.exponent

theorem Binary.magnitude_nonneg (b : Binary) : 0 ≤ b.magnitude :=
  mul_nonneg (Nat.cast_nonneg _) (zpow_nonneg (by norm_num) _)

theorem zpow_eq_mul_zpow {e f : ℤ} {k : ℕ} (h : f = k + e) : (2 : ℚ) ^ f = 2 ^ k * 2 ^ e := by
  rw [h, zpow_add₀ (by norm_num), zpow_natCast]

theorem divRound_mul (m : ℕ) {unit : ℕ} (h : 0 < unit) : divRound (m * unit) unit = m := by
  simp [divRound, Nat.mul_div_cancel m h, h]

/-- The point of the grid that `m * 2 ^ e` is rounded to. -/
def rounded (m : ℕ) (e : ℤ) : ℚ :=
  divRound m (2 ^ (gridExponent m e - e).toNat) * 2 ^ gridExponent m e

theorem rounded_le (m : ℕ) {e : ℤ} (h : e ≤ gridExponent m e) :
    rounded m e ≤ m * 2 ^ e + 2 ^ gridExponent m e / 2 := by
  unfold rounded
  generalize gridExponent m e = t at *
  have hnear := (divRound_near m (2 ^ (t - e).toNat) (Nat.two_pow_pos _)).1
  have hnear' : 2 * ((divRound m (2 ^ (t - e).toNat) : ℚ) * 2 ^ (t - e).toNat) ≤
      2 * m + 2 ^ (t - e).toNat := by exact_mod_cast hnear
  have hstep : (2 : ℚ) ^ t = 2 ^ (t - e).toNat * 2 ^ e := zpow_eq_mul_zpow (by omega)
  have hpos : (0 : ℚ) < 2 ^ e := zpow_pos (by norm_num) e
  rw [hstep]
  nlinarith

theorem rounded_le_of_le {m p : ℕ} {e t : ℤ} (he : e ≤ gridExponent m e) (ht : gridExponent m e ≤ t)
    (h : (m : ℚ) * 2 ^ e ≤ p * 2 ^ t) : rounded m e ≤ p * 2 ^ t := by
  have hle := rounded_le m he
  unfold rounded at hle ⊢
  generalize gridExponent m e = g at *
  generalize divRound m (2 ^ (g - e).toNat) = r at *
  have hstep : (2 : ℚ) ^ t = (2 ^ (t - g).toNat : ℕ) * 2 ^ g := by
    rw [Nat.cast_pow, Nat.cast_ofNat]
    exact zpow_eq_mul_zpow (by omega)
  have hpos : (0 : ℚ) < 2 ^ g := zpow_pos (by norm_num) g
  rw [hstep, ← mul_assoc] at h ⊢
  have hlt : (r : ℚ) < p * (2 ^ (t - g).toNat : ℕ) + 1 := by nlinarith
  have hr : r ≤ p * 2 ^ (t - g).toNat := by
    have hlt' : r < p * 2 ^ (t - g).toNat + 1 := by exact_mod_cast hlt
    omega
  exact mul_le_mul_of_nonneg_right (by exact_mod_cast hr) hpos.le

theorem rounded_eq (m k : ℕ) {e : ℤ} (h : gridExponent (m * 2 ^ k) e = e + k) :
    rounded (m * 2 ^ k) e = m * 2 ^ (e + k) := by
  have hshift : (e + k - e).toNat = k := by omega
  rw [rounded, h, hshift, divRound_mul m (Nat.two_pow_pos k)]

theorem rounded_self {m : ℕ} {e : ℤ} (h : gridExponent m e = e) : rounded m e = m * 2 ^ e := by
  simpa using rounded_eq m 0 (e := e) (by simpa using h)

theorem zpow_le_mul_zpow {r p : ℕ} (hr : 2 ^ p ≤ r) {e q : ℤ} (he : q ≤ p + e) :
    (2 : ℚ) ^ q ≤ r * 2 ^ e := by
  have hr' : (2 : ℚ) ^ p ≤ r := by exact_mod_cast hr
  calc (2 : ℚ) ^ q ≤ 2 ^ ((p : ℤ) + e) := zpow_le_zpow_right₀ (by norm_num) he
    _ = 2 ^ p * 2 ^ e := zpow_eq_mul_zpow rfl
    _ ≤ r * 2 ^ e := mul_le_mul_of_nonneg_right hr' (zpow_nonneg (by norm_num) e)

/-- Half a step above the greatest double. -/
def overflow : ℚ := 2 ^ (1024 : ℤ) - 2 ^ (970 : ℤ)

theorem overflow_lt : overflow < 2 ^ (1024 : ℤ) := sub_lt_self _ (zpow_pos (by norm_num) _)

theorem zpow_le_overflow : 2 ^ (1023 : ℤ) ≤ overflow := by
  have hdouble : (2 : ℚ) ^ (1024 : ℤ) = 2 ^ (1023 : ℤ) * 2 := zpow_add_one₀ (by norm_num) 1023
  have hstep : (2 : ℚ) ^ (970 : ℤ) ≤ 2 ^ (1023 : ℤ) := zpow_le_zpow_right₀ (by norm_num) (by norm_num)
  rw [overflow, hdouble]
  generalize (2 : ℚ) ^ (1023 : ℤ) = bound at hstep ⊢
  generalize (2 : ℚ) ^ (970 : ℤ) = step at hstep ⊢
  linarith

theorem overflow_pos : 0 < overflow := (zpow_pos (by norm_num) _).trans_le zpow_le_overflow

theorem overflow_eq : overflow = ((2 ^ 54 - 1 : ℕ) : ℚ) * 2 ^ (970 : ℤ) := by
  have hsplit : (2 : ℚ) ^ (1024 : ℤ) = 2 ^ 54 * 2 ^ (970 : ℤ) := zpow_eq_mul_zpow (by norm_num)
  rw [overflow, hsplit]
  generalize (2 : ℚ) ^ (970 : ℤ) = step
  push_cast
  ring

theorem Binary.Canonical.magnitude_lt_overflow {b : Binary} (h : b.Canonical) : b.magnitude < overflow := by
  have hsignificand : (b.significand : ℚ) ≤ 2 ^ 53 - 1 := by
    have hlt : (b.significand : ℚ) + 1 ≤ 2 ^ 53 := by exact_mod_cast h.significand_lt
    linarith
  have hstep : (2 : ℚ) ^ b.exponent ≤ 2 * 2 ^ (970 : ℤ) := by
    rw [← zpow_one_add₀ (by norm_num)]
    exact zpow_le_zpow_right₀ (by norm_num) h.exponent_le
  have hpos : (0 : ℚ) < 2 ^ (970 : ℤ) := zpow_pos (by norm_num) _
  have hle : b.magnitude ≤ (2 ^ 53 - 1) * (2 * 2 ^ (970 : ℤ)) :=
    mul_le_mul hsignificand hstep (zpow_nonneg (by norm_num) _) (by norm_num)
  rw [overflow_eq]
  generalize (2 : ℚ) ^ (970 : ℤ) = step at hpos hle
  push_cast
  linarith

theorem rounded_lt {m : ℕ} {e : ℤ} (hm : 0 < m) (he : e ≤ gridExponent m e) (h : (m : ℚ) * 2 ^ e < overflow) :
    rounded m e < 2 ^ (1024 : ℤ) := by
  have hgrid : gridExponent m e ≤ 971 := by
    by_contra hlarge
    have hexponent : (1024 : ℤ) ≤ m.log2 + e := by unfold gridExponent at hlarge; omega
    exact absurd (zpow_le_mul_zpow (Nat.log2_self_le (Nat.ne_of_gt hm)) hexponent)
      (not_le.mpr (h.trans overflow_lt))
  have hstep : (2 : ℚ) ^ gridExponent m e ≤ 2 * 2 ^ (970 : ℤ) := by
    rw [← zpow_one_add₀ (by norm_num)]
    exact zpow_le_zpow_right₀ (by norm_num) hgrid
  have hle := rounded_le m he
  unfold overflow at h
  linarith

theorem binary?_pack_carry (s : Sign) {r : ℕ} (hr : r ≤ 2 ^ 53) {e : ℤ} (hlow : -1074 ≤ e)
    (hnormal : 2 ^ 52 ≤ r ∨ e = -1074) (hlt : (r : ℚ) * 2 ^ e < 2 ^ (1024 : ℤ)) :
    ∃ b, binary? ⟨pack (carry s r e)⟩ = some b ∧ b.negative = decide (s.toBitVec.toNat = 1) ∧
      b.magnitude = r * 2 ^ e ∧ e ≤ b.exponent := by
  rcases Nat.lt_or_eq_of_le hr with hfew | rfl
  · rw [carry_of_lt s hfew]
    rcases Nat.eq_zero_or_pos r with rfl | hpos
    · obtain rfl := hnormal.resolve_left (by decide)
      exact ⟨_, binary?_pack_zero s, rfl, by simp [Binary.magnitude], le_refl _⟩
    · rw [dif_neg (Nat.ne_of_gt hpos)]
      have hhigh : e ≤ 971 := by
        by_contra hlarge
        have hr := hnormal.resolve_right (by omega)
        exact absurd (zpow_le_mul_zpow hr (by omega)) (not_le.mpr hlt)
      obtain ⟨closer, hb⟩ := binary?_pack_finite s hpos hfew hlow hhigh hnormal
      exact ⟨_, hb, rfl, rfl, le_refl _⟩
  · rw [carry_two_pow]
    have hvalue : ((2 ^ 53 : ℕ) : ℚ) * 2 ^ e = ((2 ^ 52 : ℕ) : ℚ) * 2 ^ (e + 1) := by
      rw [zpow_add₀ (by norm_num)]
      push_cast
      ring
    have hhigh : e + 1 ≤ 971 := by
      by_contra hlarge
      exact absurd (zpow_le_mul_zpow (le_refl _) (by omega)) (not_le.mpr hlt)
    obtain ⟨closer, hb⟩ := binary?_pack_finite s (by decide : 0 < 2 ^ 52) (by decide)
      (by omega) hhigh (.inl (le_refl _))
    exact ⟨_, hb, rfl, hvalue.symm, by dsimp only; omega⟩

/-- Numbers become the points that they are rounded to, if these are not too large. -/
theorem binary?_pack_round (s : Sign) {m : ℕ} (hm : 0 < m) {e : ℤ} (h : e ≤ gridExponent m e)
    (hlt : rounded m e < 2 ^ (1024 : ℤ)) :
    ∃ b, binary? ⟨pack (roundWithAccuracy .binary64 s m e .exact)⟩ = some b ∧
      b.negative = decide (s.toBitVec.toNat = 1) ∧ b.magnitude = rounded m e ∧
      gridExponent m e ≤ b.exponent := by
  have hlow : -1074 ≤ gridExponent m e := by unfold gridExponent; omega
  have hnormal : 2 ^ 52 ≤ divRound m (2 ^ (gridExponent m e - e).toNat) ∨ gridExponent m e = -1074 := by
    by_cases hgrid : gridExponent m e = -1074
    · exact .inr hgrid
    · exact .inl (le_divRound_of_log2 (Nat.ne_of_gt hm) (by unfold gridExponent at *; omega))
  rw [roundWithAccuracy_eq s m h]
  exact binary?_pack_carry s (divRound_le_of_log2 (log2_le_of_grid h)) hlow hnormal hlt

def Binary.value (b : Binary) : ℚ := if b.negative then -b.magnitude else b.magnitude

theorem Binary.magnitude_mul (b : Binary) :
    b.magnitude * twoPow (-b.exponent) = (b.significand * twoPow b.exponent : ℕ) := by
  have hscale : (2 : ℚ) ^ b.exponent * twoPow (-b.exponent) = twoPow b.exponent := by
    simp only [twoPow, Nat.pow_eq, Nat.cast_pow, Nat.cast_ofNat]
    rw [mul_comm, ← zpow_eq_mul_zpow rfl, ← zpow_natCast]
    congr 1
    omega
  rw [magnitude, mul_assoc, hscale]
  push_cast
  rfl

theorem truncate?_of_value {x : Float} {b : Binary} {n : ℤ} (hb : binary? x = some b) (h : b.value = n) :
    truncate? x = some n := by
  have hpos : 0 < twoPow (-b.exponent) := Nat.two_pow_pos _
  have hmagnitude : b.magnitude = n.natAbs := by
    have habs : |b.value| = b.magnitude := by
      unfold Binary.value
      split <;> simp [abs_of_nonneg b.magnitude_nonneg]
    rw [← habs, h, Nat.cast_natAbs, Int.cast_abs]
  have hwhole : b.significand * twoPow b.exponent = n.natAbs * twoPow (-b.exponent) := by
    have h := b.magnitude_mul
    rw [hmagnitude] at h
    exact_mod_cast h.symm
  have hsign : (if b.negative then -(n.natAbs : ℤ) else n.natAbs) = n := by
    rw [Binary.value, hmagnitude] at h
    generalize n.natAbs = m at h
    by_cases hneg : b.negative = true
    · rw [if_pos hneg] at h ⊢
      exact_mod_cast h
    · rw [if_neg hneg] at h ⊢
      exact_mod_cast h
  rw [truncate?, hb, Option.map_some, hwhole, Nat.mul_div_cancel _ hpos]
  exact congrArg some hsign

/-- The integer nearest to a number. Of two that are equally near it is the even one. -/
structure NearestEven (v : ℚ) (k : ℤ) : Prop where
  near : |v - k| ≤ 1 / 2
  even : |v - k| = 1 / 2 → k % 2 = 0

namespace NearestEven

variable {v : ℚ} {k l : ℤ}

theorem le_of_le (h : NearestEven v k) (hv : v ≤ l) : k ≤ l := by
  have hnear := (abs_le.mp h.near).1
  have hlt : (k : ℚ) < (l + 1 : ℤ) := by push_cast; linarith
  exact Int.lt_add_one_iff.mp (by exact_mod_cast hlt)

theorem ge_of_ge (h : NearestEven v k) (hv : l ≤ v) : l ≤ k := by
  have hnear := (abs_le.mp h.near).2
  have hlt : (l : ℚ) < (k + 1 : ℤ) := by push_cast; linarith
  exact Int.lt_add_one_iff.mp (by exact_mod_cast hlt)

theorem neg (h : NearestEven v k) : NearestEven (-v) (-k) := by
  have hdistance : |-v - (-k : ℤ)| = |v - k| := by
    rw [← abs_neg]
    push_cast
    congr 1
    ring
  refine ⟨hdistance.trans_le h.near, fun htie => ?_⟩
  have heven := h.even (hdistance.symm.trans htie)
  omega

theorem not_lt (h : NearestEven v k) (h' : NearestEven v l) : ¬ k < l := by
  intro hlt
  have hk := (abs_le.mp h.near).2
  have hl := (abs_le.mp h'.near).1
  have hstep : (k : ℚ) + 1 ≤ l := by exact_mod_cast hlt
  have hnext : (l : ℚ) = (k + 1 : ℤ) := by push_cast; linarith
  have hhalf : v = k + 1 / 2 := by linarith
  have hnext : l = k + 1 := by exact_mod_cast hnext
  have hkeven := h.even (by rw [hhalf]; norm_num)
  have hleven := h'.even (by rw [hhalf, hnext]; push_cast; norm_num)
  omega

theorem unique (h : NearestEven v k) (h' : NearestEven v l) : k = l :=
  le_antisymm (Int.not_lt.mp (h'.not_lt h)) (Int.not_lt.mp (h.not_lt h'))

end NearestEven

theorem divRound_even {num den : ℕ} (hden : 0 < den)
    (h : 2 * (divRound num den * den) = 2 * num + den ∨ 2 * num = 2 * (divRound num den * den) + den) :
    divRound num den % 2 = 0 := by
  have hsplit : num / den * den + num % den = num := Nat.div_add_mod' num den
  have hleft : num % den < den := Nat.mod_lt num hden
  have hnext : (num / den + 1) * den = num / den * den + den := Nat.succ_mul _ _
  unfold divRound at h ⊢
  dsimp only at h ⊢
  split
  case isTrue hless => rw [if_pos hless] at h; omega
  case isFalse hless =>
    rw [if_neg hless] at h
    split
    case isTrue hmore => rw [if_pos hmore, hnext] at h; omega
    case isFalse => split <;> omega

theorem nearestEven_divRound {v : ℚ} {num den : ℕ} (hden : 0 < den) (hv : v * den = num) :
    NearestEven v (divRound num den) := by
  have hpos : (0 : ℚ) < den := by exact_mod_cast hden
  obtain ⟨hhigh, hlow⟩ := divRound_near num den hden
  have hhigh : 2 * ((divRound num den : ℚ) * den) ≤ 2 * num + den := by exact_mod_cast hhigh
  have hlow : 2 * (num : ℚ) ≤ 2 * (divRound num den * den) + den := by exact_mod_cast hlow
  rw [← hv] at hhigh hlow
  refine ⟨?_, fun htie => ?_⟩
  · rw [Int.cast_natCast, abs_le]
    constructor <;> refine le_of_mul_le_mul_right ?_ hpos <;> linarith
  · have hhalf : 2 * (divRound num den * den) = 2 * num + den ∨ 2 * num = 2 * (divRound num den * den) + den := by
      rw [Int.cast_natCast, abs_eq (by norm_num)] at htie
      rcases htie with habove | hbelow
      · have hscaled : 2 * (num : ℚ) = 2 * (divRound num den * den) + den := by
          rw [← hv, eq_add_of_sub_eq habove]
          ring
        exact .inr (by exact_mod_cast hscaled)
      · have hscaled : 2 * ((divRound num den : ℚ) * den) = 2 * num + den := by
          rw [← hv, eq_add_of_sub_eq hbelow]
          ring
        exact .inl (by exact_mod_cast hscaled)
    exact_mod_cast divRound_even hden hhalf

theorem Binary.scaled_nearestEven (b : Binary) : NearestEven b.magnitude (b.scaled 0) := by
  have hone : tenPow 0 = 1 := rfl
  have hscaled : b.scaled 0 = divRound (b.significand * twoPow b.exponent) (twoPow (-b.exponent)) := by
    simp [Binary.scaled, hone]
  rw [hscaled]
  exact nearestEven_divRound (Nat.two_pow_pos _) b.magnitude_mul

theorem roundInt?_of_binary? {x : Float} {b : Binary} (hb : binary? x = some b) :
    ∃ k, roundInt? x = some k ∧ NearestEven b.value k := by
  rw [roundInt?, hb, Option.map_some, Binary.value]
  refine ⟨_, rfl, ?_⟩
  split
  · exact b.scaled_nearestEven.neg
  · exact b.scaled_nearestEven

/-- What a double is rounded to is the nearest integer, and nothing but a finite double is rounded. -/
theorem roundInt?_eq_some_iff {x : Float} {k : ℤ} :
    roundInt? x = some k ↔ ∃ b, binary? x = some b ∧ NearestEven b.value k := by
  constructor
  · intro h
    obtain ⟨b, hb, _⟩ := Option.map_eq_some_iff.mp h
    obtain ⟨l, hround, hnearest⟩ := roundInt?_of_binary? hb
    obtain rfl : l = k := Option.some.inj (hround.symm.trans h)
    exact ⟨b, hb, hnearest⟩
  · rintro ⟨b, hb, hnearest⟩
    obtain ⟨l, hround, hnearest'⟩ := roundInt?_of_binary? hb
    rw [hround, hnearest.unique hnearest']

end RoadNames.Decimal
