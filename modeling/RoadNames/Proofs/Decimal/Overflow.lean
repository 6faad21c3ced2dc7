import RoadNames.Proofs.Decimal.Share
set_option autoImplicit false

/-!
Numbers that are too large for a double. A number overflows just if it reaches the point half a step above the
greatest double, since that point is rounded to the even neighbour, which is no double any more.
-/

namespace RoadNames.Decimal

open Float.Model Float.Model.UnpackedFloat

theorem binary?_pack_special {u : UnpackedFloat} {s : Sign} {m : BitVec 52}
    (hu : UnpackedFloat.pack .binary64 u = packComponents .binary64 s (-1#11) m) : binary? ⟨pack u⟩ = none := by
  rw [binary?_packComponents hu, if_pos (by decide)]

theorem binary?_pack_infinity (s : Sign) : binary? ⟨pack (.infinity s)⟩ = none := binary?_pack_special rfl

theorem binary?_pack_notANumber : binary? ⟨pack .notANumber⟩ = none := binary?_pack_special rfl

theorem binary?_pack_beyond (s : Sign) {m : ℕ} (hm : 0 < m) {e : ℤ} (he : 971 < e) :
    binary? ⟨pack (.finite s m e hm)⟩ = none := by
  refine binary?_pack_special (s := s) (m := 0) ?_
  unfold UnpackedFloat.pack
  dsimp only
  rw [if_pos]
  · rfl
  · rw [exponentBias_eq]
    omega

theorem binary?_pack_carry_beyond (s : Sign) {r : ℕ} (hr : r ≤ 2 ^ 53) {e : ℤ}
    (hge : 2 ^ (1024 : ℤ) ≤ (r : ℚ) * 2 ^ e) : binary? ⟨pack (carry s r e)⟩ = none := by
  have hpos : (0 : ℚ) < 2 ^ e := zpow_pos (by norm_num) e
  have hscale : ∀ p : ℕ, ((2 ^ p : ℕ) : ℚ) * 2 ^ e = 2 ^ ((p : ℤ) + e) := by
    intro p
    rw [zpow_eq_mul_zpow rfl, Nat.cast_pow, Nat.cast_ofNat]
  rcases Nat.lt_or_eq_of_le hr with hfew | rfl
  · have hzero : r ≠ 0 := by
      rintro rfl
      rw [Nat.cast_zero, zero_mul] at hge
      exact absurd hge (not_le.mpr (zpow_pos (by norm_num) _))
    have hlt : (2 : ℚ) ^ (1024 : ℤ) < 2 ^ ((53 : ℕ) + e : ℤ) := by
      rw [← hscale]
      exact hge.trans_lt (mul_lt_mul_of_pos_right (by exact_mod_cast hfew) hpos)
    have he := (zpow_lt_zpow_iff_right₀ (by norm_num)).mp hlt
    rw [carry_of_lt s hfew, dif_neg hzero]
    exact binary?_pack_beyond s _ (by omega)
  · rw [hscale] at hge
    have he := (zpow_le_zpow_iff_right₀ (by norm_num)).mp hge
    rw [carry_two_pow]
    exact binary?_pack_beyond s _ (by omega)

variable {m : ℕ} {e : ℤ}

theorem succ_le_divRound {p unit : ℕ} (hunit : 0 < unit) (hodd : p % 2 = 1) (h : (2 * p + 1) * unit ≤ 2 * m) :
    p + 1 ≤ divRound m unit := by
  have hquotient : p ≤ m / unit := by
    rw [Nat.le_div_iff_mul_le hunit]
    nlinarith
  rcases hquotient.lt_or_eq with hlt | rfl
  · exact (Nat.succ_le_of_lt hlt).trans (le_divRound m unit)
  · have hsplit := Nat.div_add_mod m unit
    have hleft : unit ≤ 2 * (m % unit) := by nlinarith
    unfold divRound
    simp only [Nat.not_lt.mpr hleft, if_false, hodd]
    split <;> simp

theorem le_log2_of_overflow_le (h : overflow ≤ (m : ℚ) * 2 ^ e) : (1023 : ℤ) ≤ m.log2 + e := by
  by_contra hsmall
  have hbits : (m : ℚ) < 2 ^ ((m.log2 + 1 : ℕ) : ℤ) := by
    rw [zpow_natCast]
    exact_mod_cast Nat.lt_log2_self
  have hlt : (m : ℚ) * 2 ^ e < 2 ^ (1023 : ℤ) := by
    refine (mul_lt_mul_of_pos_right hbits (zpow_pos (by norm_num) e)).trans_le ?_
    rw [← zpow_add₀ (by norm_num)]
    exact zpow_le_zpow_right₀ (by norm_num) (by omega)
  exact absurd (zpow_le_overflow.trans h) (not_le.mpr hlt)

/-- On the last grid the limit lies half-way up from an odd number, the greatest one that has a double. -/
theorem halfway_le_of_overflow_le {k : ℕ} (hk : e + k = 971) (h : overflow ≤ (m : ℚ) * 2 ^ e) :
    (2 * (2 ^ 53 - 1) + 1) * 2 ^ k ≤ 2 * m := by
  have hunit : (2 : ℚ) * 2 ^ (970 : ℤ) = (2 ^ k : ℕ) * 2 ^ e := by
    rw [← zpow_one_add₀ (by norm_num), Nat.cast_pow, Nat.cast_ofNat]
    exact zpow_eq_mul_zpow (by omega)
  have hscaled : (((2 ^ 54 - 1) * 2 ^ k : ℕ) : ℚ) * 2 ^ e ≤ ((2 * m : ℕ) : ℚ) * 2 ^ e := by
    rw [overflow_eq] at h
    rw [Nat.cast_mul, Nat.cast_mul, mul_assoc, ← hunit]
    generalize (2 : ℚ) ^ (970 : ℤ) = step at h ⊢
    push_cast at h ⊢
    linarith
  have hle := le_of_mul_le_mul_right hscaled (zpow_pos (by norm_num) e)
  exact_mod_cast hle

theorem le_rounded (hm : 0 < m) (he : e ≤ gridExponent m e) (h : overflow ≤ (m : ℚ) * 2 ^ e) :
    2 ^ (1024 : ℤ) ≤ rounded m e := by
  have hexponent := le_log2_of_overflow_le h
  unfold rounded
  by_cases hlarge : (1024 : ℤ) ≤ m.log2 + e
  · have hgrid : gridExponent m e = m.log2 + e - 52 := by unfold gridExponent; omega
    have hbits : m.log2 = 52 + (gridExponent m e - e).toNat := by omega
    exact zpow_le_mul_zpow (le_divRound_of_log2 (Nat.ne_of_gt hm) hbits) (by omega)
  · have hgrid : gridExponent m e = 971 := by unfold gridExponent; omega
    rw [hgrid] at he ⊢
    obtain ⟨k, hk⟩ : ∃ k : ℕ, e + k = 971 := ⟨(971 - e).toNat, by omega⟩
    have hshift : (971 - e).toNat = k := by omega
    rw [hshift]
    have hup := succ_le_divRound (Nat.two_pow_pos k) (by decide) (halfway_le_of_overflow_le hk h)
    exact zpow_le_mul_zpow (p := 53) hup (by omega)

/-- From the limit on a number becomes no double. -/
theorem binary?_pack_round_eq_none (s : Sign) (hm : 0 < m) (he : e ≤ gridExponent m e)
    (h : overflow ≤ (m : ℚ) * 2 ^ e) : binary? ⟨pack (roundWithAccuracy .binary64 s m e .exact)⟩ = none := by
  rw [roundWithAccuracy_eq s m he]
  exact binary?_pack_carry_beyond s (divRound_le_of_log2 (log2_le_of_grid he)) (le_rounded hm he h)

/-- The number is not negative. Neither is the negative zero. -/
def Binary.Nonneg (b : Binary) : Prop := b.negative = false ∨ b.significand = 0

variable {x y : Float} {b c : Binary}

theorem compare_finite_zero (b : Binary) {m : ℕ} (e : ℤ) (hm : 0 < m) :
    UnpackedFloat.compare (.finite (signOf b) m e hm) (.zero .positive) = some (if b.negative then .lt else .gt) := by
  unfold signOf
  cases b.negative <;> rfl

theorem compare_zero_finite (b : Binary) {m : ℕ} (e : ℤ) (hm : 0 < m) :
    UnpackedFloat.compare (.zero .positive) (.finite (signOf b) m e hm) = some (if b.negative then .gt else .lt) := by
  unfold signOf
  cases b.negative <;> rfl

theorem not_lt_zero_iff (hb : binary? x = some b) : ¬ x < 0 ↔ b.Nonneg := by
  rw [lt_iff, unpack_zero, unpack_of_binary? hb, Binary.Nonneg]
  by_cases hzero : b.significand = 0
  · rw [dif_pos hzero]
    exact iff_of_true (by rintro ⟨⟩) (.inr hzero)
  · rw [dif_neg hzero, compare_finite_zero]
    cases b.negative <;> simp [hzero]

theorem nonneg_of_zero_le (hb : binary? x = some b) (h : 0 ≤ x) : b.Nonneg := by
  rw [le_iff, unpack_zero, unpack_of_binary? hb] at h
  by_cases hzero : b.significand = 0
  · exact .inr hzero
  · rw [dif_neg hzero, compare_zero_finite] at h
    cases hneg : b.negative with
    | false => exact .inl hneg
    | true =>
      rw [hneg] at h
      cases h

theorem mul_zero_significand (hb : binary? x = some b) (hc : binary? y = some c) (hzero : b.significand = 0)
    (hcpos : 0 < c.significand) : x * y = ⟨pack (.zero (signOf b * signOf c))⟩ := by
  show (⟨pack (mul .binary64 x.toModel.unpack y.toModel.unpack)⟩ : Float) = _
  rw [unpack_of_binary? hb, unpack_of_binary? hc, dif_pos hzero, dif_neg (Nat.ne_of_gt hcpos)]
  rfl

theorem grid_product (hbpos : 0 < b.significand) (hcnormal : 2 ^ 52 ≤ c.significand) :
    b.exponent + c.exponent ≤ gridExponent (b.significand * c.significand) (b.exponent + c.exponent) := by
  have hbits : 52 ≤ (b.significand * c.significand).log2 :=
    (Nat.le_log2 (Nat.mul_ne_zero (Nat.ne_of_gt hbpos) (by omega))).mpr
      (hcnormal.trans (Nat.le_mul_of_pos_left _ hbpos))
  unfold gridExponent
  omega

section
variable (hb : binary? x = some b) (hc : binary? y = some c) (hcnormal : 2 ^ 52 ≤ c.significand)
include hb hc hcnormal

/-- Below the limit a product is a double, and not negative if the first factor is not. -/
theorem binary?_mul (hcneg : c.negative = false) (h : b.magnitude * c.magnitude < overflow) :
    ∃ p, binary? (x * y) = some p ∧ (b.Nonneg → p.Nonneg) := by
  by_cases hzero : b.significand = 0
  · rw [mul_zero_significand hb hc hzero (by omega)]
    exact ⟨_, binary?_pack_zero _, fun _ => .inr rfl⟩
  · have hbpos := Nat.pos_of_ne_zero hzero
    have hpos : 0 < b.significand * c.significand := Nat.mul_pos hbpos (by omega)
    have hgrid := grid_product hbpos hcnormal
    rw [← product_eq] at h
    obtain ⟨p, hp, hneg, _⟩ := binary?_pack_round (signOf b * signOf c) hpos hgrid (rounded_lt hpos hgrid h)
    rw [mul_eq hb hc hbpos (by omega)]
    refine ⟨p, hp, fun hnonneg => .inl ?_⟩
    rw [hneg, signOf_of_positive (hnonneg.resolve_right hzero), signOf_of_positive hcneg]
    rfl

theorem binary?_mul_eq_none (h : overflow ≤ b.magnitude * c.magnitude) : binary? (x * y) = none := by
  have hbpos : 0 < b.significand := by
    by_contra hzero
    obtain hzero : b.significand = 0 := by omega
    rw [Binary.magnitude, hzero, Nat.cast_zero, zero_mul, zero_mul] at h
    exact absurd h (not_le.mpr overflow_pos)
  have hpos : 0 < b.significand * c.significand := Nat.mul_pos hbpos (by omega)
  have hgrid := grid_product hbpos hcnormal
  rw [← product_eq] at h
  rw [mul_eq hb hc hbpos (by omega)]
  exact binary?_pack_round_eq_none _ hpos hgrid h

end

theorem binary?_mul_of_none (hx : binary? x = none) (hc : binary? y = some c) (hcpos : 0 < c.significand) :
    binary? (x * y) = none := by
  have hproduct : x * y = ⟨pack (mul .binary64 x.toModel.unpack y.toModel.unpack)⟩ := rfl
  rw [hproduct, unpack_of_binary? hc, dif_neg (Nat.ne_of_gt hcpos)]
  rcases unpack_of_binary?_eq_none hx with hu | ⟨s, hu⟩
  · rw [hu]
    exact binary?_pack_notANumber
  · rw [hu]
    exact binary?_pack_infinity _

theorem binary?_floatOfInt_eq_none {n : ℕ} (h : overflow ≤ n) : binary? (floatOfInt n) = none := by
  have hbits : (2 : ℚ) ^ (53 : ℤ) ≤ 2 ^ (1023 : ℤ) := zpow_le_zpow_right₀ (by norm_num) (by norm_num)
  have hmany : 2 ^ 53 ≤ n := by exact_mod_cast (hbits.trans zpow_le_overflow).trans h
  rw [floatOfInt_of_many hmany]
  exact binary?_pack_round_eq_none _ (Nat.mul_pos (by omega) (Nat.two_pow_pos 53)) (gridExponent_of_many hmany).2
    (h.trans_eq (natCast_of_many n).symm)

/-- A count that is no double has no proper part. -/
theorem roundInt?_share_eq_none {n : ℕ} {f : Float} (h : overflow ≤ n) (hpos : 0 < f) (hone : ¬ 1.0 ≤ f) :
    roundInt? (floatOfInt n * f) = none := by
  obtain ⟨c, hc, hproper⟩ := binary?_of_proper hpos hone
  rw [roundInt?, binary?_mul_of_none (binary?_floatOfInt_eq_none h) hc hproper.nonzero, Option.map_none]

end RoadNames.Decimal
