import RoadNames.Proofs.Decimal.Magnitude
set_option autoImplicit false

namespace RoadNames.Decimal

open Float.Model Float.Model.UnpackedFloat

theorem mul_finite (s t : Sign) {m n : ℕ} (e f : ℤ) (hm : 0 < m) (hn : 0 < n) :
    mul .binary64 (finite s m e hm) (finite t n f hn) =
      roundWithAccuracy .binary64 (s * t) (m * n) (e + f) .exact :=
  rfl

theorem mul_eq {x y : Float} {b c : Binary} (hb : binary? x = some b) (hc : binary? y = some c)
    (hbpos : 0 < b.significand) (hcpos : 0 < c.significand) :
    x * y = ⟨pack (roundWithAccuracy .binary64 (signOf b * signOf c) (b.significand * c.significand)
      (b.exponent + c.exponent) .exact)⟩ := by
  show (⟨pack (mul .binary64 x.toModel.unpack y.toModel.unpack)⟩ : Float) = _
  rw [unpack_of_binary? hb, unpack_of_binary? hc, dif_neg (Nat.ne_of_gt hbpos),
    dif_neg (Nat.ne_of_gt hcpos), mul_finite]

theorem log2_mul_two_pow {n : ℕ} (h : n ≠ 0) (k : ℕ) : (n * 2 ^ k).log2 = n.log2 + k := by
  have hpos : 0 < 2 ^ k := Nat.two_pow_pos k
  refine (Nat.log2_eq_iff (Nat.mul_ne_zero h (Nat.ne_of_gt hpos))).mpr ⟨?_, ?_⟩
  · rw [Nat.pow_add]
    exact Nat.mul_le_mul_right _ (Nat.log2_self_le h)
  · rw [show n.log2 + k + 1 = n.log2 + 1 + k by omega, Nat.pow_add]
    exact Nat.mul_lt_mul_of_pos_right Nat.lt_log2_self hpos

/-- The double holds the natural number, or the nearest to it of those that have few enough bits. -/
structure Binary.Counts (b : Binary) (n : ℕ) : Prop where
  positive : b.negative = false
  normal : 2 ^ 52 ≤ b.significand
  near : b.magnitude ≤ n ∨ 0 < b.exponent ∧ b.magnitude ≤ n + 2 ^ b.exponent / 2

theorem normal_of_exponent {x : Float} {b : Binary} (hb : binary? x = some b) (h : -1074 < b.exponent) :
    2 ^ 52 ≤ b.significand :=
  (canonical_of_binary? hb).normal.resolve_right (by omega)

theorem natCast_lt_of_few {n : ℕ} (h : n < 2 ^ 53) : (n : ℚ) < 2 ^ (1024 : ℤ) := by
  have hn : (n : ℚ) < 2 ^ (53 : ℤ) := by exact_mod_cast h
  exact hn.trans (zpow_lt_zpow_right₀ (by norm_num) (by norm_num))

theorem binary?_toFloat {n : ℕ} (hpos : 0 < n) (h : n < 2 ^ 53) :
    ∃ b, binary? n.toUInt64.toFloat = some b ∧ b.negative = false ∧ -52 ≤ b.exponent ∧
      b.magnitude = n := by
  have hlog : n.log2 < 53 := (Nat.log2_lt (Nat.ne_of_gt hpos)).mpr h
  have htoNat : n.toUInt64.toNat = n := Nat.mod_eq_of_lt (by omega)
  obtain ⟨k, hk⟩ : ∃ k, n.log2 + k = 52 := ⟨52 - n.log2, by omega⟩
  have hgrid : gridExponent n 0 = -k := by unfold gridExponent; omega
  have hexact : gridExponent (n * 2 ^ k) (-k) = -k := by
    rw [gridExponent, log2_mul_two_pow (Nat.ne_of_gt hpos)]
    omega
  have hround : n.toUInt64.toFloat =
      ⟨pack (roundWithAccuracy .binary64 .positive (n * 2 ^ k) (-k) .exact)⟩ := by
    show (⟨pack (UnpackedFloat.ofNat .binary64 n.toUInt64.toNat)⟩ : Float) = _
    have hgt : compare (n : ℤ) 0 = .gt := by rw [Int.compare_eq_gt]; omega
    rw [htoNat, UnpackedFloat.ofNat, UnpackedFloat.ofInt, UnpackedFloat.normalize, hgt]
    simp [UnpackedFloat.round, targetExponent_eq, decreaseExponent, hgrid, Nat.shiftLeft_eq]
  have hvalue : rounded (n * 2 ^ k) (-k) = n := by
    rw [rounded_self hexact]
    simp
  obtain ⟨b, hb, hneg, hmag, hexp⟩ := binary?_pack_round .positive (Nat.mul_pos hpos (Nat.two_pow_pos k))
    (le_of_eq hexact.symm) (hvalue ▸ natCast_lt_of_few h)
  rw [hround]
  exact ⟨b, hb, hneg, by omega, hmag.trans hvalue⟩

theorem binary?_one : binary? Float.exactlyRepresentablePowersOfTen[0] = some ⟨false, 2 ^ 52, -52, true⟩ := by
  decide +kernel

theorem floatOfInt_natCast (n : ℕ) : floatOfInt n = Float.ofScientific n false 0 := by
  simp [floatOfInt]

theorem signOf_of_positive {b : Binary} (h : b.negative = false) : signOf b = .positive := by
  simp [signOf, h]

theorem counts_of_few {n : ℕ} (hpos : 0 < n) (h : n < 2 ^ 53) :
    ∃ b, binary? (floatOfInt n) = some b ∧ b.Counts n := by
  obtain ⟨b, hb, hneg, hexp, hmag⟩ := binary?_toFloat hpos h
  have hnormal := normal_of_exponent hb (by omega)
  have hlog : b.significand.log2 = 52 :=
    (Nat.log2_eq_iff (by omega)).mpr ⟨hnormal, (canonical_of_binary? hb).significand_lt⟩
  have hexact : gridExponent (b.significand * 2 ^ 52) (b.exponent + -52) = b.exponent + -52 + (52 : ℕ) := by
    rw [gridExponent, log2_mul_two_pow (by omega)]
    omega
  have hround : floatOfInt n = ⟨pack (roundWithAccuracy .binary64 .positive (b.significand * 2 ^ 52)
      (b.exponent + -52) .exact)⟩ := by
    have hproduct := mul_eq hb binary?_one (by omega) (by decide)
    rw [signOf_of_positive hneg] at hproduct
    rw [floatOfInt_natCast, Float.ofScientific, dif_pos ⟨h, by decide⟩]
    exact hproduct
  have hvalue : rounded (b.significand * 2 ^ 52) (b.exponent + -52) = n := by
    rw [rounded_eq _ _ hexact, ← hmag, Binary.magnitude]
    congr 2
    omega
  have hgrid : b.exponent + -52 ≤ gridExponent (b.significand * 2 ^ 52) (b.exponent + -52) := by omega
  obtain ⟨c, hc, hcneg, hcmag, hcexp⟩ := binary?_pack_round .positive
    (Nat.mul_pos (by omega) (Nat.two_pow_pos 52)) hgrid (hvalue ▸ natCast_lt_of_few h)
  rw [hround]
  exact ⟨c, hc, hcneg, normal_of_exponent hc (by omega), .inl (le_of_eq (hcmag.trans hvalue))⟩

theorem ofScientific_eq_round {n : ℕ} (h : n ≠ 0) :
    UnpackedFloat.ofScientific .binary64 n 0 =
      roundWithAccuracy .binary64 .positive (n * 2 ^ 53) (-53) .exact := by
  have hsmall : ¬ (0 : ℤ) < -((2 ^ Format.binary64.exponentBits : ℤ) + n.log2) := by
    have hbits : (2 ^ Format.binary64.exponentBits : ℤ) = 2048 := by decide
    omega
  rw [UnpackedFloat.ofScientific, dif_neg h, if_neg (by decide), if_neg hsmall, if_pos (le_refl _), mul_finite]
  have hbits : Format.binary64.mantissaBits = 53 := by decide
  have hsign : Sign.positive * Sign.positive = .positive := rfl
  simp only [hbits, hsign, Nat.shiftLeft_eq, Int.toNat_zero, Nat.pow_zero, Nat.mul_one,
    Int.add_zero]
  norm_num

theorem floatOfInt_of_many {n : ℕ} (h : 2 ^ 53 ≤ n) :
    floatOfInt n = ⟨pack (roundWithAccuracy .binary64 .positive (n * 2 ^ 53) (-53) .exact)⟩ := by
  rw [floatOfInt_natCast, Float.ofScientific, dif_neg (by omega)]
  exact congrArg (fun u => (⟨pack u⟩ : Float)) (ofScientific_eq_round (by omega))

theorem gridExponent_of_many {n : ℕ} (h : 2 ^ 53 ≤ n) :
    gridExponent (n * 2 ^ 53) (-53) = n.log2 - 52 ∧ -53 ≤ gridExponent (n * 2 ^ 53) (-53) := by
  have hlog : 53 ≤ n.log2 := (Nat.le_log2 (by omega)).mpr h
  rw [gridExponent, log2_mul_two_pow (by omega)]
  omega

theorem natCast_of_many (n : ℕ) : ((n * 2 ^ 53 : ℕ) : ℚ) * 2 ^ (-53 : ℤ) = n := by
  push_cast
  rw [mul_assoc]
  norm_num

theorem natCast_lt_overflow {n : ℕ} (h : n < 2 ^ 1023) : (n : ℚ) < overflow := by
  have hn : (n : ℚ) < 2 ^ (1023 : ℤ) := by exact_mod_cast h
  exact hn.trans_le zpow_le_overflow

theorem counts_of_many {n : ℕ} (h : 2 ^ 53 ≤ n) (hn : n < overflow) :
    ∃ b, binary? (floatOfInt n) = some b ∧ b.Counts n := by
  have hlog : 53 ≤ n.log2 := (Nat.le_log2 (by omega)).mpr h
  obtain ⟨hexponent, hgrid⟩ := gridExponent_of_many h
  have hpos : 0 < n * 2 ^ 53 := Nat.mul_pos (by omega) (Nat.two_pow_pos 53)
  have hvalue := rounded_le (n * 2 ^ 53) hgrid
  rw [natCast_of_many] at hvalue
  have hlt := rounded_lt hpos hgrid ((natCast_of_many n).trans_lt hn)
  obtain ⟨b, hb, hneg, hmag, hexp⟩ := binary?_pack_round .positive hpos hgrid hlt
  refine ⟨b, floatOfInt_of_many h ▸ hb, hneg, normal_of_exponent hb (by omega), .inr ⟨by omega, ?_⟩⟩
  have hstep : (2 : ℚ) ^ gridExponent (n * 2 ^ 53) (-53) ≤ 2 ^ b.exponent :=
    zpow_le_zpow_right₀ (by norm_num) hexp
  calc b.magnitude = rounded (n * 2 ^ 53) (-53) := hmag
    _ ≤ n + 2 ^ gridExponent (n * 2 ^ 53) (-53) / 2 := hvalue
    _ ≤ n + 2 ^ b.exponent / 2 := by gcongr

theorem counts_floatOfInt {n : ℕ} (hpos : 0 < n) (hn : n < overflow) :
    ∃ b, binary? (floatOfInt n) = some b ∧ b.Counts n := by
  by_cases h : n < 2 ^ 53
  · exact counts_of_few hpos h
  · exact counts_of_many (by omega) hn

theorem unpack_of_binary?_eq_none {x : Float} (h : binary? x = none) :
    x.toModel.unpack = .notANumber ∨ ∃ s, x.toModel.unpack = .infinity s := by
  have hfield := exponentBits_of_binary?_eq_none h
  show UnpackedFloat.unpack .binary64 x.toBits.toBitVec = _ ∨ ∃ s, UnpackedFloat.unpack .binary64 x.toBits.toBitVec = _
  unfold UnpackedFloat.unpack
  dsimp only
  rw [if_pos ((unpackExponent_eq_special_iff x).mpr hfield)]
  split
  · exact .inr ⟨_, rfl⟩
  · exact .inl rfl

theorem lt_iff (x y : Float) : x < y ↔ x.toModel.unpack.compare y.toModel.unpack = some .lt := by
  show decide (x.toModel < y.toModel) = true ↔ _
  rw [decide_eq_true_iff]
  show (x.toModel.unpack.compare y.toModel.unpack == some .lt) = true ↔ _
  exact beq_iff_eq

theorem le_iff (x y : Float) : x ≤ y ↔ (x.toModel.unpack.compare y.toModel.unpack).any (·.isLE) = true := by
  show decide (x.toModel ≤ y.toModel) = true ↔ _
  rw [decide_eq_true_iff]
  rfl

theorem compare_finite {m n : ℕ} (e f : ℤ) (hm : 0 < m) (hn : 0 < n) :
    UnpackedFloat.compare (.finite .positive m e hm) (.finite .positive n f hn) =
      some ((compare e f).then (compare m n)) :=
  rfl

theorem unpack_zero : (0 : Float).toModel.unpack = .zero .positive := by
  have hb : binary? 0 = some ⟨false, 0, -1074, false⟩ := by decide +kernel
  exact unpack_of_binary? hb

theorem unpack_one : (1.0 : Float).toModel.unpack = .finite .positive (2 ^ 52) (-52) (by decide) := by
  have hb : binary? 1.0 = some ⟨false, 2 ^ 52, -52, true⟩ := by decide +kernel
  exact unpack_of_binary? hb

/-- The double lies between zero and one. -/
structure Binary.Proper (c : Binary) : Prop where
  positive : c.negative = false
  nonzero : 0 < c.significand
  significand_lt : c.significand < 2 ^ 53
  exponent_le : c.exponent ≤ -53

theorem binary?_of_proper {f : Float} (hpos : 0 < f) (hone : ¬ 1.0 ≤ f) :
    ∃ c, binary? f = some c ∧ c.Proper := by
  rw [lt_iff, unpack_zero] at hpos
  rw [le_iff, unpack_one] at hone
  cases hf : binary? f with
  | none =>
    rcases unpack_of_binary?_eq_none hf with hu | ⟨s, hu⟩ <;> rw [hu] at hpos hone
    · cases hpos
    · cases s
      · cases hpos
      · exact absurd rfl hone
  | some c =>
    have hcanonical := canonical_of_binary? hf
    have hu := unpack_of_binary? hf
    by_cases hzero : c.significand = 0
    · rw [hu, dif_pos hzero] at hpos
      cases hpos
    · rw [hu, dif_neg hzero] at hpos hone
      cases hneg : c.negative with
      | true =>
        rw [signOf, hneg] at hpos
        cases hpos
      | false =>
        refine ⟨c, rfl, hneg, Nat.pos_of_ne_zero hzero, hcanonical.significand_lt, ?_⟩
        rw [signOf_of_positive hneg, compare_finite] at hone
        have hlt : (compare (-52) c.exponent).then (compare (2 ^ 52) c.significand) = .gt := by
          simpa using hone
        rw [Ordering.then_eq_gt, Int.compare_eq_gt, Int.compare_eq_eq, Nat.compare_eq_gt] at hlt
        have hnormal := hcanonical.normal
        omega

variable {n : ℕ} {b c : Binary}

theorem Binary.Proper.magnitude_le (hc : c.Proper) : c.magnitude ≤ 1 - 1 / 2 ^ 53 := by
  have hstep : (2 : ℚ) ^ c.exponent ≤ 2 ^ (-53 : ℤ) := zpow_le_zpow_right₀ (by norm_num) hc.exponent_le
  have hle : (c.significand : ℚ) ≤ 2 ^ 53 - 1 := by
    have hlt : (c.significand : ℚ) + 1 ≤ 2 ^ 53 := by exact_mod_cast hc.significand_lt
    linarith
  calc c.magnitude ≤ (2 ^ 53 - 1) * 2 ^ (-53 : ℤ) :=
        mul_le_mul hle hstep (zpow_nonneg (by norm_num) _) (by norm_num)
    _ = 1 - 1 / 2 ^ 53 := by norm_num

theorem product_eq (b c : Binary) :
    ((b.significand * c.significand : ℕ) : ℚ) * 2 ^ (b.exponent + c.exponent) = b.magnitude * c.magnitude := by
  rw [zpow_add₀ (by norm_num), Binary.magnitude, Binary.magnitude]
  push_cast
  ring

theorem Binary.Proper.product_le (hc : c.Proper) :
    ((b.significand * c.significand : ℕ) : ℚ) * 2 ^ (b.exponent + c.exponent) ≤
      (b.significand - b.significand / 2 ^ 53) * 2 ^ b.exponent := by
  rw [product_eq]
  refine (mul_le_mul_of_nonneg_left hc.magnitude_le b.magnitude_nonneg).trans (le_of_eq ?_)
  rw [Binary.magnitude]
  ring

theorem Binary.Proper.log2_lt (hc : c.Proper) (hnormal : 2 ^ 52 ≤ b.significand) {k : ℕ}
    (hk : b.significand ≤ 2 ^ k) : (b.significand * c.significand).log2 < k + 53 := by
  refine (Nat.log2_lt (Nat.mul_ne_zero (by omega) (Nat.ne_of_gt hc.nonzero))).mpr ?_
  rw [Nat.pow_add]
  exact Nat.mul_lt_mul_of_le_of_lt hk hc.significand_lt (Nat.two_pow_pos k)

theorem Binary.Proper.grid (hc : c.Proper) (hb : b.Canonical) (hnormal : 2 ^ 52 ≤ b.significand) :
    b.exponent + c.exponent ≤ gridExponent (b.significand * c.significand) (b.exponent + c.exponent) ∧
      gridExponent (b.significand * c.significand) (b.exponent + c.exponent) ≤ b.exponent := by
  have hlow : 52 ≤ (b.significand * c.significand).log2 :=
    (Nat.le_log2 (Nat.mul_ne_zero (by omega) (Nat.ne_of_gt hc.nonzero))).mpr
      (hnormal.trans (Nat.le_mul_of_pos_right _ hc.nonzero))
  have hhigh := hc.log2_lt hnormal hb.significand_lt.le
  have hsmall := hc.exponent_le
  have hleast := hb.le_exponent
  unfold gridExponent
  omega

theorem Binary.Proper.rounded_le_whole (hc : c.Proper) (hb : b.Canonical) (hnormal : 2 ^ 52 ≤ b.significand) :
    rounded (b.significand * c.significand) (b.exponent + c.exponent) ≤ b.magnitude := by
  obtain ⟨hgrid, hcoarse⟩ := hc.grid hb hnormal
  have hunit : (0 : ℚ) < 2 ^ b.exponent := zpow_pos (by norm_num) _
  have hpart : (0 : ℚ) ≤ b.significand / 2 ^ 53 := div_nonneg (Nat.cast_nonneg _) (by norm_num)
  refine rounded_le_of_le hgrid hcoarse (hc.product_le.trans ?_)
  exact mul_le_mul_of_nonneg_right (by linarith) hunit.le

/-- On a grid finer than that of the whole, the part is rounded to half a step below the whole or less. -/
theorem Binary.Proper.rounded_le_of_fine (hc : c.Proper) (hb : b.Canonical) (hnormal : 2 ^ 52 ≤ b.significand)
    (hfine : gridExponent (b.significand * c.significand) (b.exponent + c.exponent) < b.exponent) :
    rounded (b.significand * c.significand) (b.exponent + c.exponent) ≤ b.magnitude - 2 ^ b.exponent / 2 := by
  have hfull : (2 : ℚ) ^ 52 ≤ b.significand := by exact_mod_cast hnormal
  have hunit : (0 : ℚ) < 2 ^ (b.exponent - 1) := zpow_pos (by norm_num) _
  have hhalf : (2 : ℚ) ^ b.exponent = 2 * 2 ^ (b.exponent - 1) := by
    rw [← zpow_one_add₀ (by norm_num)]
    congr 1
    omega
  have hpoint : ((2 * b.significand - 1 : ℕ) : ℚ) = 2 * b.significand - 1 := by
    rw [Nat.cast_sub (by omega)]
    push_cast
    ring
  have hproduct := hc.product_le (b := b)
  rw [hhalf] at hproduct
  have hle : rounded (b.significand * c.significand) (b.exponent + c.exponent) ≤
      (2 * b.significand - 1 : ℕ) * 2 ^ (b.exponent - 1) := by
    refine rounded_le_of_le (hc.grid hb hnormal).1 (by omega) ?_
    rw [hpoint]
    nlinarith
  refine hle.trans (le_of_eq ?_)
  rw [hpoint, Binary.magnitude, hhalf]
  ring

/-- On the grid of the whole, the part is rounded to a step below the whole or less. -/
theorem Binary.Proper.rounded_le_of_coarse (hc : c.Proper) (hb : b.Canonical)
    (hnormal : 2 ^ 52 ≤ b.significand)
    (hcoarse : gridExponent (b.significand * c.significand) (b.exponent + c.exponent) = b.exponent)
    (hleast : b.exponent ≠ -1074) :
    rounded (b.significand * c.significand) (b.exponent + c.exponent) ≤ b.magnitude - 2 ^ b.exponent := by
  have hunit : (0 : ℚ) < 2 ^ b.exponent := zpow_pos (by norm_num) _
  have hmore : 2 ^ 52 < b.significand := by
    by_contra hnot
    have hlog := hc.log2_lt hnormal (k := 52) (by omega)
    have hsmall := hc.exponent_le
    unfold gridExponent at hcoarse
    omega
  have hmore' : (2 : ℚ) ^ 52 < b.significand := by exact_mod_cast hmore
  have hproduct := hc.product_le (b := b)
  have hle := rounded_le (b.significand * c.significand) (hc.grid hb hnormal).1
  rw [hcoarse] at hle
  unfold rounded at hle ⊢
  rw [hcoarse] at hle ⊢
  generalize divRound _ _ = r at *
  have hlt : (r : ℚ) < b.significand := by nlinarith
  have hlt' : (r : ℚ) + 1 ≤ b.significand := by exact_mod_cast hlt
  rw [Binary.magnitude]
  nlinarith

theorem Binary.Proper.rounded_le_count (hc : c.Proper) (hb : b.Canonical) (hcount : b.Counts n) :
    rounded (b.significand * c.significand) (b.exponent + c.exponent) ≤ n := by
  have hwhole := hc.rounded_le_whole hb hcount.normal
  rcases hcount.near with hnear | ⟨hexponent, hnear⟩
  · exact hwhole.trans hnear
  · -- The double may be up to half of a step above the count.
    have hunit : (0 : ℚ) < 2 ^ b.exponent := zpow_pos (by norm_num) _
    rcases (hc.grid hb hcount.normal).2.lt_or_eq with hfine | hcoarse
    · have hle := hc.rounded_le_of_fine hb hcount.normal hfine
      linarith
    · have hle := hc.rounded_le_of_coarse hb hcount.normal hcoarse (by omega)
      linarith

/-- A proper part of a count is not above the whole, and neither is the integer that it is rounded to. -/
theorem roundInt?_share {f : Float} (hn : n < overflow) (hcount : 0 < n) (hpos : 0 < f) (hone : ¬ 1.0 ≤ f) :
    ∃ k ≤ n, roundInt? (floatOfInt n * f) = some (k : ℤ) := by
  obtain ⟨b, hb, hcounts⟩ := counts_floatOfInt hcount hn
  obtain ⟨c, hc, hproper⟩ := binary?_of_proper hpos hone
  have hnormal := hcounts.normal
  have hcanonical := canonical_of_binary? hb
  have hbelow := hproper.rounded_le_whole hcanonical hnormal
  obtain ⟨p, hp, hneg, hmag, _⟩ := binary?_pack_round (Sign.positive * Sign.positive)
    (Nat.mul_pos (by omega) hproper.nonzero) (hproper.grid hcanonical hnormal).1
    (hbelow.trans_lt (hcanonical.magnitude_lt_overflow.trans overflow_lt))
  have hvalue : p.value = p.magnitude := if_neg (by rw [hneg]; exact Bool.false_ne_true)
  have hle : p.value ≤ (n : ℤ) := by
    rw [hvalue, hmag]
    exact hproper.rounded_le_count hcanonical hcounts
  have hnonneg : ((0 : ℤ) : ℚ) ≤ p.value := by
    rw [hvalue]
    exact_mod_cast p.magnitude_nonneg
  rw [mul_eq hb hc (by omega) hproper.nonzero, signOf_of_positive hcounts.positive,
    signOf_of_positive hproper.positive]
  obtain ⟨k, hround, hnearest⟩ := roundInt?_of_binary? hp
  obtain ⟨m, rfl⟩ := Int.eq_ofNat_of_zero_le (hnearest.ge_of_ge hnonneg)
  exact ⟨m, by exact_mod_cast hnearest.le_of_le hle, hround⟩

end RoadNames.Decimal
