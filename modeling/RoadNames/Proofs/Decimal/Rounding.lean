import Mathlib.Algebra.GroupWithZero.Nat
import Mathlib.Tactic.Linarith
import Mathlib.Tactic.Ring
import RoadNames.Decimal
set_option autoImplicit false

/-!
Doubles are rounded to the nearest point of a grid, a half to the even neighbour. The bits that fall
below the grid are shifted out one by one, and of those the first and whether there are others are kept.
-/

namespace RoadNames.Decimal

open Float.Model Float.Model.UnpackedFloat

theorem exponentBias_eq : (Format.binary64.exponentBias : ℤ) = 1023 := by decide

theorem toNat_packComponents (s : Sign) (e : BitVec 11) (m : BitVec 52) :
    (packComponents .binary64 s e m).toNat =
      s.toBitVec.toNat * signBit + e.toNat * fullSignificand + m.toNat := by
  have he := e.isLt
  have hm := m.isLt
  show (s.toBitVec ++ e ++ m).toNat = _
  rw [BitVec.toNat_append, BitVec.toNat_append, ← Nat.shiftLeft_add_eq_or_of_lt he,
    ← Nat.shiftLeft_add_eq_or_of_lt hm]
  simp only [Nat.shiftLeft_eq, signBit, fullSignificand]
  omega

theorem toNat_unpackExponent (b : BitVec 64) :
    (@unpackExponent .binary64 b).toNat = b.toNat / fullSignificand % 0x800 := by
  simp [unpackExponent, BitVec.extractLsb_toNat, Nat.shiftRight_eq_div_pow, fullSignificand]

theorem toNat_unpackMantissa (b : BitVec 64) :
    (@unpackMantissa .binary64 b).toNat = b.toNat % fullSignificand := by
  simp [unpackMantissa, BitVec.extractLsb_toNat, fullSignificand]

theorem toNat_unpackSign (b : BitVec 64) :
    (@unpackSign .binary64 b).toNat = b.toNat / signBit % 2 := by
  unfold unpackSign
  simp [BitVec.extractLsb_toNat, Nat.shiftRight_eq_div_pow, signBit]

theorem binary?_of_toNat {x : Float} {sign field fraction : ℕ} (hsign : sign < 2) (hfield : field < 0x800)
    (hfraction : fraction < fullSignificand)
    (h : x.toBits.toNat = sign * signBit + field * fullSignificand + fraction) :
    binary? x =
      if field = specialExponent then none
      else if field = 0 then some ⟨decide (sign = 1), fraction, -1074, false⟩
      else some ⟨decide (sign = 1), fullSignificand + fraction, (field : ℤ) - 1075,
        fraction == 0 && field > 1⟩ := by
  have hexp : exponentBits x = field := by
    simp only [exponentBits, h, signBit, fullSignificand] at hfraction ⊢
    omega
  have hfrac : x.toBits.toNat % fullSignificand = fraction := by
    simp only [h, signBit, fullSignificand] at hfraction ⊢
    omega
  have hneg : decide (signBit ≤ x.toBits.toNat) = decide (sign = 1) := by
    simp only [h, signBit, fullSignificand, decide_eq_decide] at hfraction ⊢
    omega
  simp only [binary?, hexp, hfrac, hneg]

theorem exponentBits_of_binary?_eq_none {x : Float} (h : binary? x = none) :
    exponentBits x = specialExponent := by
  unfold binary? at h
  dsimp only at h
  split at h
  case isTrue hfield => exact hfield
  case isFalse => split at h <;> cases h

/-- What can be told of the exact value of a double. -/
structure Binary.Canonical (b : Binary) : Prop where
  significand_lt : b.significand < 2 ^ 53
  le_exponent : -1074 ≤ b.exponent
  exponent_le : b.exponent ≤ 971
  normal : 2 ^ 52 ≤ b.significand ∨ b.exponent = -1074

theorem canonical_of_binary? {x : Float} {b : Binary} (h : binary? x = some b) : b.Canonical := by
  have hfield : exponentBits x < 0x800 := Nat.mod_lt _ (by decide)
  have hfraction : x.toBits.toNat % fullSignificand < fullSignificand := Nat.mod_lt _ (by decide)
  unfold binary? at h
  simp only at h
  split at h
  · cases h
  · rename_i hspecial
    simp only [specialExponent, fullSignificand] at hspecial hfraction h
    split at h <;> cases h <;> constructor <;> dsimp only <;> omega

theorem finite_congr {s : Sign} {m n : ℕ} {e f : ℤ} {hm : 0 < m} (hn : 0 < n) (hmn : m = n) (hef : e = f) :
    finite s m e hm = finite s n f hn := by
  subst hmn hef
  rfl

def signOf (b : Binary) : Sign := if b.negative then .negative else .positive

theorem toNat_append_one (m : BitVec 52) : (1#1 ++ m).toNat = fullSignificand + m.toNat := by
  have hm := m.isLt
  rw [BitVec.toNat_append, ← Nat.shiftLeft_add_eq_or_of_lt hm]
  rfl

theorem ofBitVec_unpackSign (b : BitVec 64) :
    Sign.ofBitVec (@unpackSign .binary64 b) =
      if decide (signBit ≤ b.toNat) then .negative else .positive := by
  have hb := b.isLt
  have hsign : @unpackSign .binary64 b = 0#1 ↔ ¬ signBit ≤ b.toNat := by
    rw [← BitVec.toNat_inj, toNat_unpackSign]
    simp only [signBit, BitVec.toNat_ofNat]
    omega
  simp only [decide_eq_true_eq]
  unfold Sign.ofBitVec
  split <;> split <;> simp_all

section
variable (x : Float)

theorem unpackExponent_eq_special_iff :
    @unpackExponent .binary64 x.toBits.toBitVec = -1#_ ↔ exponentBits x = specialExponent := by
  rw [← BitVec.toNat_inj, toNat_unpackExponent]
  rfl

theorem unpackExponent_eq_zero_iff :
    @unpackExponent .binary64 x.toBits.toBitVec = 0#_ ↔ exponentBits x = 0 := by
  rw [← BitVec.toNat_inj, toNat_unpackExponent]
  rfl

theorem unpackMantissa_eq_zero_iff :
    @unpackMantissa .binary64 x.toBits.toBitVec = 0#_ ↔ x.toBits.toNat % fullSignificand = 0 := by
  rw [← BitVec.toNat_inj, toNat_unpackMantissa]
  rfl

end

theorem unpack_of_binary? {x : Float} {b : Binary} (h : binary? x = some b) :
    x.toModel.unpack =
      if hb : b.significand = 0 then .zero (signOf b)
      else .finite (signOf b) b.significand b.exponent (Nat.pos_of_ne_zero hb) := by
  have hmantissa := toNat_unpackMantissa x.toBits.toBitVec
  have hsign := ofBitVec_unpackSign x.toBits.toBitVec
  unfold binary? at h
  dsimp only at h
  show UnpackedFloat.unpack .binary64 x.toBits.toBitVec = _
  unfold UnpackedFloat.unpack
  dsimp only
  split at h
  case isTrue => cases h
  case isFalse hfinite =>
    rw [if_neg ((unpackExponent_eq_special_iff x).not.mpr hfinite), hsign]
    split at h <;> cases h <;> dsimp only [signOf]
    case isTrue hsub =>
      rw [if_pos ((unpackExponent_eq_zero_iff x).mpr hsub)]
      by_cases hm : x.toBits.toNat % fullSignificand = 0
      · rw [dif_pos ((unpackMantissa_eq_zero_iff x).mpr hm), dif_pos hm]
        rfl
      · rw [dif_neg ((unpackMantissa_eq_zero_iff x).not.mpr hm), dif_neg hm]
        refine finite_congr _ hmantissa ?_
        rw [(unpackExponent_eq_zero_iff x).mpr hsub, exponentBias_eq]
        decide
    case isFalse hnormal =>
      rw [if_neg ((unpackExponent_eq_zero_iff x).not.mpr hnormal), dif_neg (by simp [fullSignificand])]
      refine finite_congr _ ?_ ?_
      · rw [toNat_append_one, hmantissa]
        rfl
      · rw [toNat_unpackExponent, exponentBias_eq]
        rfl

theorem binary?_packComponents {u : UnpackedFloat} {s : Sign} {e : BitVec 11} {m : BitVec 52}
    (hu : UnpackedFloat.pack .binary64 u = packComponents .binary64 s e m) :
    binary? ⟨pack u⟩ =
      if e.toNat = specialExponent then none
      else if e.toNat = 0 then some ⟨decide (s.toBitVec.toNat = 1), m.toNat, -1074, false⟩
      else some ⟨decide (s.toBitVec.toNat = 1), fullSignificand + m.toNat, (e.toNat : ℤ) - 1075,
        m.toNat == 0 && e.toNat > 1⟩ := by
  have hbits : (Float.ofModel (pack u)).toBits.toNat = (packComponents .binary64 s e m).toNat :=
    congrArg BitVec.toNat hu
  exact binary?_of_toNat s.toBitVec.isLt e.isLt m.isLt (hbits.trans (toNat_packComponents s e m))

theorem binary?_pack_finite (s : Sign) {m : ℕ} (hpos : 0 < m) (hm : m < 2 ^ 53) {e : ℤ} (hlow : -1074 ≤ e)
    (hhigh : e ≤ 971) (hnormal : 2 ^ 52 ≤ m ∨ e = -1074) :
    ∃ closer, binary? ⟨pack (.finite s m e hpos)⟩ =
      some ⟨decide (s.toBitVec.toNat = 1), m, e, closer⟩ := by
  have hbias := exponentBias_eq
  have hlog : m.log2 + 1 = 53 ↔ 2 ^ 52 ≤ m := by
    have h := Nat.log2_eq_iff (n := m) (k := 52) (Nat.ne_of_gt hpos)
    omega
  have hbits : UnpackedFloat.pack .binary64 (.finite s m e hpos) =
      if 2 ^ 52 ≤ m then packComponents .binary64 s (BitVec.ofNat _ (e + 1075).toNat) (BitVec.ofNat _ m)
      else packComponents .binary64 s 0#_ (BitVec.ofNat _ m) := by
    have hfield : (e + Format.binary64.exponentBias + (52 : ℕ)).toNat = (e + 1075).toNat := by omega
    unfold UnpackedFloat.pack
    dsimp only
    rw [hfield, if_neg (by omega)]
    exact if_congr hlog rfl rfl
  by_cases h : 2 ^ 52 ≤ m
  · rw [if_pos h] at hbits
    have hfield : (BitVec.ofNat 11 (e + 1075).toNat).toNat = (e + 1075).toNat := by
      rw [BitVec.toNat_ofNat]
      omega
    have hrest : fullSignificand + (BitVec.ofNat 52 m).toNat = m := by
      rw [BitVec.toNat_ofNat, fullSignificand]
      omega
    rw [binary?_packComponents hbits, hfield, hrest, if_neg (by unfold specialExponent; omega),
      if_neg (by omega), show ((e + 1075).toNat : ℤ) - 1075 = e by omega]
    exact ⟨_, rfl⟩
  · rw [if_neg h] at hbits
    have hrest : (BitVec.ofNat 52 m).toNat = m := by
      rw [BitVec.toNat_ofNat]
      omega
    obtain rfl := hnormal.resolve_left h
    rw [binary?_packComponents hbits, hrest]
    exact ⟨false, rfl⟩

theorem binary?_pack_zero (s : Sign) :
    binary? ⟨pack (.zero s)⟩ = some ⟨decide (s.toBitVec.toNat = 1), 0, -1074, false⟩ := by
  cases s <;> decide +kernel

/-- The mantissa is the quotient of `m` by a unit, and its marks tell what is left over: nothing, less than
half of the unit, half of it, or more. -/
structure Quotient (em : ExtendedMantissa) (m unit : ℕ) : Prop where
  mantissa : em.mantissa = m / unit
  round : em.roundBit = true ↔ unit ≤ 2 * (m % unit)
  sticky : em.stickyBit = true ↔ 2 * (m % unit) ≠ 0 ∧ 2 * (m % unit) ≠ unit

theorem quotient_one (m : ℕ) : Quotient (.ofMantissaAndAccuracy m .exact) m 1 := by
  constructor <;> simp [ExtendedMantissa.ofMantissaAndAccuracy, Nat.mod_one]

theorem Quotient.shiftRightOne {em : ExtendedMantissa} {m unit : ℕ} (h : Quotient em m unit)
    (hunit : 0 < unit) : Quotient em.shiftRightOne m (unit * 2) := by
  obtain ⟨hmantissa, hround, hsticky⟩ := h
  have hleft : m % unit < unit := Nat.mod_lt m hunit
  have hmod : m % (unit * 2) = m % unit + unit * (m / unit % 2) := Nat.mod_mul
  have hbit : m / unit % 2 = 0 ∧ m % (unit * 2) = m % unit ∨
      m / unit % 2 = 1 ∧ m % (unit * 2) = m % unit + unit := by
    rcases Nat.mod_two_eq_zero_or_one (m / unit) with hb | hb <;> simp [hmod, hb]
  constructor
  · rw [ExtendedMantissa.shiftRightOne, hmantissa, Nat.div_div_eq_div_mul]
  · simp only [ExtendedMantissa.shiftRightOne, hmantissa, bne_iff_ne]
    omega
  · simp only [ExtendedMantissa.shiftRightOne, Bool.or_eq_true, hround, hsticky]
    omega

theorem quotient_shiftRight (m k : ℕ) :
    Quotient (ExtendedMantissa.ofMantissaAndAccuracy m .exact >>> k) m (2 ^ k) := by
  show Quotient (k.repeat ExtendedMantissa.shiftRightOne _) m (2 ^ k)
  induction k with
  | zero => exact quotient_one m
  | succ k ih => exact ih.shiftRightOne (Nat.two_pow_pos k)

theorem Quotient.roundedMantissa {em : ExtendedMantissa} {m unit : ℕ} (h : Quotient em m unit) :
    em.roundedMantissa = divRound m unit := by
  obtain ⟨hmantissa, hround, hsticky⟩ := h
  obtain ⟨mantissa, round, sticky⟩ := em
  simp only at hmantissa hround hsticky
  unfold divRound
  cases round <;> cases sticky <;>
    simp [ExtendedMantissa.roundedMantissa, ExtendedMantissa.accuracy, Accuracy.roundToNearestEven] at * <;>
    grind

/-- The exponent of the grid of doubles around `m * 2 ^ e`. -/
def gridExponent (m : ℕ) (e : ℤ) : ℤ := max (m.log2 + e - 52) (-1074)

theorem targetExponent_eq (m : ℕ) (e : ℤ) :
    Format.binary64.targetExponent (totalExponent m e) = gridExponent m e := by
  have hbits : Format.binary64.mantissaBits = 53 := by decide
  have hmin : Format.binary64.minExponent = -1074 := by decide
  simp only [Format.targetExponent, totalExponent, hbits, hmin, gridExponent]
  omega

theorem shiftToTargetExponent_eq (m : ℕ) {e : ℤ} (h : e ≤ gridExponent m e) :
    shiftToTargetExponent .binary64 m e .exact =
      (ExtendedMantissa.ofMantissaAndAccuracy m .exact >>> (gridExponent m e - e).toNat,
        gridExponent m e) := by
  simp only [shiftToTargetExponent, shiftToExponent, targetExponent_eq, Prod.mk.injEq, true_and]
  omega

theorem shiftToTargetExponent_of_lt {m : ℕ} {e : ℤ} (hm : m < 2 ^ 53) (he : -1074 ≤ e) :
    shiftToTargetExponent .binary64 m e .exact = (⟨m, false, false⟩, e) := by
  have hlog : m.log2 < 53 := by
    by_cases h : m = 0
    · simp [h]
    · exact (Nat.log2_lt h).mpr hm
  have hshift : (gridExponent m e - e).toNat = 0 := by unfold gridExponent; omega
  simp only [shiftToTargetExponent, shiftToExponent, targetExponent_eq, hshift]
  simp [HShiftRight.hShiftRight, Nat.repeat, ExtendedMantissa.ofMantissaAndAccuracy]

theorem shiftToTargetExponent_carry {e : ℤ} (he : -1074 ≤ e) :
    shiftToTargetExponent .binary64 (2 ^ 53) e .exact = (⟨2 ^ 52, false, false⟩, e + 1) := by
  have hshift : (gridExponent (2 ^ 53) e - e).toNat = 1 := by
    simp only [gridExponent, Nat.log2_two_pow]
    omega
  simp only [shiftToTargetExponent, shiftToExponent, targetExponent_eq, hshift]
  rfl

theorem divRound_le_of_log2 {m k : ℕ} (h : m.log2 ≤ 52 + k) : divRound m (2 ^ k) ≤ 2 ^ 53 := by
  have hm : m < 2 ^ 53 * 2 ^ k := by
    rw [← Nat.pow_add]
    exact Nat.lt_of_lt_of_le Nat.lt_log2_self (Nat.pow_le_pow_right (by decide) (by omega))
  have hnear := (divRound_near m (2 ^ k) (Nat.two_pow_pos k)).1
  have hlt : 2 * divRound m (2 ^ k) * 2 ^ k < (2 * 2 ^ 53 + 1) * 2 ^ k := by
    rw [Nat.add_mul, Nat.mul_assoc, Nat.mul_assoc]
    omega
  have hrounded := Nat.lt_of_mul_lt_mul_right hlt
  omega

theorem log2_le_of_grid {m : ℕ} {e : ℤ} (h : e ≤ gridExponent m e) :
    m.log2 ≤ 52 + (gridExponent m e - e).toNat := by
  unfold gridExponent at h ⊢
  omega

theorem le_divRound (num den : ℕ) : num / den ≤ divRound num den := by
  unfold divRound
  grind

theorem le_divRound_of_log2 {m k : ℕ} (hm : m ≠ 0) (h : m.log2 = 52 + k) : 2 ^ 52 ≤ divRound m (2 ^ k) := by
  refine le_trans ((Nat.le_div_iff_mul_le (Nat.two_pow_pos k)).mpr ?_) (le_divRound _ _)
  rw [← Nat.pow_add, ← h]
  exact Nat.log2_self_le hm

/-- The number `± r * 2 ^ e`, where a mantissa of one bit too many, being a power of two, goes over to the
next coarser grid. -/
def carry (s : Sign) (r : ℕ) (e : ℤ) : UnpackedFloat :=
  if h : r = 0 then .zero s
  else if r < 2 ^ 53 then .finite s r e (Nat.pos_of_ne_zero h)
  else .finite s (2 ^ 52) (e + 1) (by decide)

theorem carry_two_pow (s : Sign) (e : ℤ) : carry s (2 ^ 53) e = .finite s (2 ^ 52) (e + 1) (by decide) := rfl

theorem carry_of_lt (s : Sign) {r : ℕ} {e : ℤ} (hlt : r < 2 ^ 53) :
    carry s r e = if h : r = 0 then .zero s else .finite s r e (Nat.pos_of_ne_zero h) := by
  unfold carry
  by_cases h : r = 0
  · rw [dif_pos h, dif_pos h]
  · rw [dif_neg h, dif_neg h, if_pos hlt]

/-- Rounding takes a nearest point of the grid. -/
theorem roundWithAccuracy_eq (s : Sign) (m : ℕ) {e : ℤ} (h : e ≤ gridExponent m e) :
    roundWithAccuracy .binary64 s m e .exact =
      carry s (divRound m (2 ^ (gridExponent m e - e).toNat)) (gridExponent m e) := by
  have hlow : -1074 ≤ gridExponent m e := by unfold gridExponent; omega
  have hround := (quotient_shiftRight m (gridExponent m e - e).toNat).roundedMantissa
  rw [roundWithAccuracy, shiftToTargetExponent_eq m h]
  dsimp only
  rw [hround]
  rcases Nat.lt_or_eq_of_le (divRound_le_of_log2 (log2_le_of_grid h)) with hlt | hcarry
  · rw [shiftToTargetExponent_of_lt hlt hlow, carry_of_lt s hlt]
  · rw [hcarry, shiftToTargetExponent_carry hlow, carry_two_pow]
    rfl

end RoadNames.Decimal
