import Mathlib.Tactic.IntervalCases
import RoadNames.Geography
import RoadNames.Proofs.Decimal.Overflow
set_option autoImplicit false

namespace RoadNames

namespace Decimal

theorem eq_of_toBits_eq {x y : Float} (h : x.toBits = y.toBits) : x = y := by
  obtain ⟨⟨a, ha⟩⟩ := x
  obtain ⟨⟨b, hb⟩⟩ := y
  obtain rfl : a = b := h
  rfl

theorem eq_zero_or_neg_zero {x : Float} (h : equalityKey x = 0) : x = 0 ∨ x = -0 := by
  have hpos : (0 : Float).toBits = 0 := by decide +kernel
  have hneg : (-0 : Float).toBits = 0x8000000000000000 := by decide +kernel
  unfold equalityKey at h
  split at h
  case isTrue hx => exact .inr (eq_of_toBits_eq (hx.trans hneg.symm))
  case isFalse => exact .inl (eq_of_toBits_eq (h.trans hpos.symm))

theorem eq_or_zero_of_equalityKey_eq {x y : Float} (h : equalityKey x = equalityKey y) :
    x = y ∨ (equalityKey x = 0 ∧ equalityKey y = 0) := by
  by_cases hx : equalityKey x = 0
  · exact .inr ⟨hx, h ▸ hx⟩
  · have hy : equalityKey y ≠ 0 := h ▸ hx
    refine .inl (eq_of_toBits_eq ?_)
    unfold equalityKey at h hx hy
    split at h <;> split at h <;> simp_all

theorem divRound_zero (den : Nat) : divRound 0 den = 0 := by simp [divRound]

theorem ofScientific_zero (below : Bool) (e : Nat) : Float.ofScientific 0 below e = 0 := by
  by_cases h : e ≤ 22
  · -- the powers of ten up to this one are taken from a table
    interval_cases e <;> cases below <;> decide +kernel
  · have hzero : (0 : Float) = ⟨Float.Model.pack (.zero .positive)⟩ := by decide +kernel
    simp [Float.ofScientific, h, hzero, Float.Model.ofScientific, Float.Model.UnpackedFloat.ofScientific]

theorem equalityKey_negateIf_zero (negative : Bool) : equalityKey (negateIf negative 0) = 0 := by
  cases negative <;> decide +kernel

theorem roundPlaces_of_significand_zero {x : Float} {b : Binary} (hb : binary? x = some b)
    (hzero : b.significand = 0) (places : Int) :
    roundPlaces x places = x ∨ roundPlaces x places = negateIf b.negative 0 := by
  have hscaled : b.scaled places = 0 := by simp [Binary.scaled, hzero, divRound_zero]
  simp only [roundPlaces, hb, hscaled, ofScientific_zero]
  split
  · exact .inl rfl
  · exact .inr (by split <;> rfl)

theorem equalityKey_roundPlaces_zero {x : Float} (h : equalityKey x = 0) (places : Int) :
    equalityKey (roundPlaces x places) = 0 := by
  have hb : ∃ b, binary? x = some b ∧ b.significand = 0 := by
    rcases eq_zero_or_neg_zero h with rfl | rfl
    · exact ⟨⟨false, 0, -1074, false⟩, by decide +kernel, rfl⟩
    · exact ⟨⟨true, 0, -1074, false⟩, by decide +kernel, rfl⟩
  obtain ⟨b, hb, hzero⟩ := hb
  rcases roundPlaces_of_significand_zero hb hzero places with hr | hr
  · rw [hr]; exact h
  · rw [hr]; exact equalityKey_negateIf_zero b.negative

theorem equalityKey_roundPlaces {x y : Float} (h : equalityKey x = equalityKey y) (places : Int) :
    equalityKey (roundPlaces x places) = equalityKey (roundPlaces y places) := by
  rcases eq_or_zero_of_equalityKey_eq h with rfl | ⟨hx, hy⟩
  · rfl
  · rw [equalityKey_roundPlaces_zero hx, equalityKey_roundPlaces_zero hy]

open Float.Model Float.Model.UnpackedFloat

variable {x y : Float} {b c : Binary}

/-- A finite double is known by its sign, its significand and its exponent. -/
theorem eq_of_binary? (hx : binary? x = some b) (hy : binary? y = some c) (hsign : b.negative = c.negative)
    (hsignificand : b.significand = c.significand) (hexponent : b.exponent = c.exponent) : x = y := by
  have hxlt := x.toBits.toNat_lt
  have hylt := y.toBits.toNat_lt
  refine eq_of_toBits_eq (UInt64.toNat_inj.mp ?_)
  generalize hm : x.toBits.toNat = m at *
  generalize hn : y.toBits.toNat = n at *
  simp only [binary?, exponentBits, hm, specialExponent, fullSignificand, signBit] at hx
  simp only [binary?, exponentBits, hn, specialExponent, fullSignificand, signBit] at hy
  have hm52 : m % 0x10000000000000 < 0x10000000000000 := Nat.mod_lt _ (by decide)
  have hn52 : n % 0x10000000000000 < 0x10000000000000 := Nat.mod_lt _ (by decide)
  split at hx
  case isTrue => cases hx
  case isFalse =>
    split at hy
    case isTrue => cases hy
    case isFalse =>
      split at hx <;> split at hy <;> cases hx <;> cases hy <;>
        simp only [decide_eq_decide] at hsign hsignificand hexponent <;> omega

theorem binary?_zero : binary? 0 = some ⟨false, 0, -1074, false⟩ := by decide +kernel

theorem binary?_neg_zero : binary? (-0) = some ⟨true, 0, -1074, false⟩ := by decide +kernel

theorem equalityKey_eq_zero_iff (hx : binary? x = some b) : equalityKey x = 0 ↔ b.significand = 0 := by
  constructor
  · intro hkey
    rcases eq_zero_or_neg_zero hkey with rfl | rfl
    · rw [← Option.some.inj (binary?_zero.symm.trans hx)]
    · rw [← Option.some.inj (binary?_neg_zero.symm.trans hx)]
  · intro hzero
    have hexponent : b.exponent = -1074 := (canonical_of_binary? hx).normal.resolve_left (by omega)
    cases hsign : b.negative with
    | false => rw [eq_of_binary? hx binary?_zero hsign hzero hexponent]; decide +kernel
    | true => rw [eq_of_binary? hx binary?_neg_zero hsign hzero hexponent]; decide +kernel

theorem compare_finite_eq_iff (s t : Sign) {m n : ℕ} (e f : ℤ) (hm : 0 < m) (hn : 0 < n) :
    UnpackedFloat.compare (.finite s m e hm) (.finite t n f hn) = some .eq ↔ s = t ∧ e = f ∧ m = n := by
  have hthen : (compare e f).then (compare m n) = .eq ↔ e = f ∧ m = n := by
    rw [Ordering.then_eq_eq, compare_eq_iff_eq, compare_eq_iff_eq]
  cases s <;> cases t
  case positive.positive =>
    show some ((compare e f).then (compare m n)) = some .eq ↔ _
    rw [Option.some.injEq, hthen]
    exact (and_iff_right rfl).symm
  case negative.negative =>
    show some ((compare e f).then (compare m n)).swap = some .eq ↔ _
    rw [Option.some.injEq, Ordering.swap_eq_eq, hthen]
    exact (and_iff_right rfl).symm
  case positive.negative => exact iff_of_false (by rintro ⟨⟩) (by rintro ⟨⟨⟩, _⟩)
  case negative.positive => exact iff_of_false (by rintro ⟨⟩) (by rintro ⟨⟨⟩, _⟩)

theorem compare_zero_zero (s t : Sign) : UnpackedFloat.compare (.zero s) (.zero t) = some .eq := by
  cases s <;> cases t <;> rfl

theorem compare_zero_finite_ne (s t : Sign) {m : ℕ} (e : ℤ) (hm : 0 < m) :
    UnpackedFloat.compare (.zero s) (.finite t m e hm) ≠ some .eq := by
  cases s <;> cases t <;> rintro ⟨⟩

theorem compare_finite_zero_ne (s t : Sign) {m : ℕ} (e : ℤ) (hm : 0 < m) :
    UnpackedFloat.compare (.finite s m e hm) (.zero t) ≠ some .eq := by
  cases s <;> cases t <;> rintro ⟨⟩

theorem signOf_eq_iff : signOf b = signOf c ↔ b.negative = c.negative := by
  unfold signOf
  cases b.negative <;> cases c.negative <;> simp

theorem beq_iff (x y : Float) : (x == y) = true ↔ x.toModel.unpack.compare y.toModel.unpack = some .eq := by
  show (x.toModel.unpack.compare y.toModel.unpack == some .eq) = true ↔ _
  exact beq_iff_eq

theorem beq_iff_equalityKey (hx : binary? x = some b) (hy : binary? y = some c) :
    (x == y) = true ↔ equalityKey x = equalityKey y := by
  have hxzero := equalityKey_eq_zero_iff hx
  have hyzero := equalityKey_eq_zero_iff hy
  rw [beq_iff, unpack_of_binary? hx, unpack_of_binary? hy]
  by_cases hb : b.significand = 0 <;> by_cases hc : c.significand = 0
  · rw [dif_pos hb, dif_pos hc, hxzero.mpr hb, hyzero.mpr hc]
    exact iff_of_true (compare_zero_zero _ _) rfl
  · rw [dif_pos hb, dif_neg hc, hxzero.mpr hb]
    exact iff_of_false (compare_zero_finite_ne _ _ _ _) fun hkey => hc (hyzero.mp hkey.symm)
  · rw [dif_neg hb, dif_pos hc, hyzero.mpr hc]
    exact iff_of_false (compare_finite_zero_ne _ _ _ _) fun hkey => hb (hxzero.mp hkey)
  · rw [dif_neg hb, dif_neg hc, compare_finite_eq_iff, signOf_eq_iff]
    constructor
    · rintro ⟨hsign, hexponent, hsignificand⟩
      rw [eq_of_binary? hx hy hsign hsignificand hexponent]
    · intro hkey
      rcases eq_or_zero_of_equalityKey_eq hkey with rfl | ⟨hzero, _⟩
      · obtain rfl := Option.some.inj (hx.symm.trans hy)
        exact ⟨rfl, rfl, rfl⟩
      · exact absurd (hxzero.mp hzero) hb

end Decimal

namespace Location

theorem node_eq_of_same {p q : Location} (h : p.same q = true) (digits : Int) :
    p.node digits = q.node digits := by
  have hpoint : p.point = q.point := of_decide_eq_true h
  have hlat : Decimal.equalityKey p.lat = Decimal.equalityKey q.lat := congrArg Node.lat hpoint
  have hlon : Decimal.equalityKey p.lon = Decimal.equalityKey q.lon := congrArg Node.lon hpoint
  simp only [node, rounded, Decimal.equalityKey_roundPlaces hlat, Decimal.equalityKey_roundPlaces hlon]

theorem same_eq (p q : Location) : p.same q = (p.lat == q.lat && p.lon == q.lon) := by
  have hfinite : ∀ r : Location, ∃ b c, Decimal.binary? r.lat = some b ∧ Decimal.binary? r.lon = some c := by
    intro r
    have hr := r.finite
    rw [isFinitePair, Bool.and_eq_true, Decimal.isFinite_iff_binary?, Decimal.isFinite_iff_binary?,
      Option.isSome_iff_exists, Option.isSome_iff_exists] at hr
    obtain ⟨⟨b, hb⟩, c, hc⟩ := hr
    exact ⟨b, c, hb, hc⟩
  obtain ⟨_, _, hplat, hplon⟩ := hfinite p
  obtain ⟨_, _, hqlat, hqlon⟩ := hfinite q
  rw [Bool.eq_iff_iff, Bool.and_eq_true, Decimal.beq_iff_equalityKey hplat hqlat,
    Decimal.beq_iff_equalityKey hplon hqlon]
  simp [same, point]

example : same ⟨0, 90, by decide +kernel, by decide +kernel⟩ ⟨-0, 90, by decide +kernel, by decide +kernel⟩ = true := by
  decide +kernel

end Location

open Decimal Float.Model Float.Model.UnpackedFloat

theorem isLength_iff (x : Float) : isLength x = true ↔ ∃ b, binary? x = some b ∧ b.Nonneg := by
  unfold isLength
  rw [Bool.and_eq_true, isFinite_iff_binary?, Option.isSome_iff_exists, Bool.not_eq_true', decide_eq_false_iff_not]
  constructor
  · rintro ⟨⟨b, hb⟩, hx⟩
    exact ⟨b, hb, (not_lt_zero_iff hb).mp hx⟩
  · rintro ⟨b, hb, hx⟩
    exact ⟨⟨b, hb⟩, (not_lt_zero_iff hb).mpr hx⟩

theorem LengthUnit.exists_binary (u : LengthUnit) :
    ∃ c, binary? u.inMeters = some c ∧ c.negative = false ∧ 2 ^ 52 ≤ c.significand := by
  have hsome : (binary? u.inMeters).any (fun c => !c.negative && 2 ^ 52 ≤ c.significand) = true := by
    cases u <;> decide +kernel
  obtain ⟨c, hc, hcases⟩ := (Option.any_eq_true ..).mp hsome
  exact ⟨c, hc, by simpa using hcases⟩

theorem Distance.ofUnits_error {value : Float} {unit : LengthUnit} (h : isLength (value * unit.inMeters) = false) :
    Distance.ofUnits value unit = .error (.invalid (value * unit.inMeters)) := by
  simp [Distance.ofUnits, Distance.ofMeters, h]

/-- So many units are a number of meters below the one from which on numbers overflow. -/
def InReach (value : Float) (unit : LengthUnit) : Prop :=
  ∃ b c, binary? value = some b ∧ binary? unit.inMeters = some c ∧ b.magnitude * c.magnitude < overflow

/-- A number that is not negative is a length in a unit just if it is in reach. -/
theorem Distance.ofUnits_ok_iff {value : Float} (h : 0 ≤ value) (unit : LengthUnit) :
    (∃ d, Distance.ofUnits value unit = .ok d) ↔ InReach value unit := by
  obtain ⟨c, hc, hcneg, hcnormal⟩ := unit.exists_binary
  have hlength : (∃ d, Distance.ofUnits value unit = .ok d) ↔ isLength (value * unit.inMeters) = true := by
    unfold Distance.ofUnits Distance.ofMeters
    by_cases hl : isLength (value * unit.inMeters) = true <;> simp [hl]
  rw [hlength, isLength_iff]
  constructor
  · rintro ⟨p, hp, _⟩
    cases hb : binary? value with
    | none =>
      rw [binary?_mul_of_none hb hc (by omega)] at hp
      cases hp
    | some b =>
      refine ⟨b, c, hb, hc, lt_of_not_ge fun hge => ?_⟩
      rw [binary?_mul_eq_none hb hc hcnormal hge] at hp
      cases hp
  · rintro ⟨b, c', hb, hc', hlt⟩
    obtain rfl := Option.some.inj (hc.symm.trans hc')
    obtain ⟨p, hp, hnonneg⟩ := binary?_mul hb hc hcnormal hcneg hlt
    exact ⟨p, hp, hnonneg (nonneg_of_zero_le hb h)⟩

theorem inReach_meters_iff (value : Float) : InReach value .meters ↔ isFinite value = true := by
  have hone : binary? LengthUnit.meters.inMeters = some ⟨false, 2 ^ 52, -52, true⟩ := by decide +kernel
  rw [isFinite_iff_binary?, Option.isSome_iff_exists]
  constructor
  · rintro ⟨b, _, hb, _⟩
    exact ⟨b, hb⟩
  · rintro ⟨b, hb⟩
    have hunit : (⟨false, 2 ^ 52, -52, true⟩ : Binary).magnitude = 1 := by norm_num [Binary.magnitude]
    refine ⟨b, _, hb, hone, ?_⟩
    rw [hunit, mul_one]
    exact (canonical_of_binary? hb).magnitude_lt_overflow

theorem not_isLE_infinity {x : Float} {b : Binary} (hb : binary? x = some b) :
    ¬ (UnpackedFloat.compare (.infinity .positive) x.toModel.unpack).any (·.isLE) = true := by
  rw [unpack_of_binary? hb]
  by_cases hzero : b.significand = 0
  · rw [dif_pos hzero]
    exact Bool.false_ne_true
  · rw [dif_neg hzero]
    exact Bool.false_ne_true

theorem not_isLE_minusInfinity {x : Float} {b : Binary} (hb : binary? x = some b) :
    ¬ (UnpackedFloat.compare x.toModel.unpack (.infinity .negative)).any (·.isLE) = true := by
  rw [unpack_of_binary? hb]
  by_cases hzero : b.significand = 0
  · rw [dif_pos hzero]
    exact Bool.false_ne_true
  · rw [dif_neg hzero]
    exact Bool.false_ne_true

theorem isFinite_of_between {x low high : Float} (hlow : low ≤ x) (hhigh : x ≤ high) (hlowFinite : isFinite low = true)
    (hhighFinite : isFinite high = true) : isFinite x = true := by
  rw [isFinite_iff_binary?, Option.isSome_iff_exists] at *
  obtain ⟨l, hl⟩ := hlowFinite
  obtain ⟨h, hh⟩ := hhighFinite
  cases hx : binary? x with
  | some b => exact ⟨b, rfl⟩
  | none =>
    exfalso
    rw [le_iff] at hlow hhigh
    rcases unpack_of_binary?_eq_none hx with hu | ⟨s, hu⟩
    · rw [unpack_of_binary? hh, hu] at hhigh
      cases hhigh
    · rw [hu] at hlow hhigh
      cases s with
      | positive => exact absurd hhigh (not_isLE_infinity hh)
      | negative => exact absurd hlow (not_isLE_minusInfinity hl)

theorem Location.ofDegrees_ok {lat lon : Float} (hlat : -90 ≤ lat ∧ lat ≤ 90) (hlon : -180 ≤ lon ∧ lon ≤ 180) :
    ∃ p, Location.ofDegrees lat lon = .ok p := by
  have hfinite : isFinitePair lat lon = true := by
    rw [isFinitePair, Bool.and_eq_true]
    exact ⟨isFinite_of_between hlat.1 hlat.2 (by decide +kernel) (by decide +kernel),
      isFinite_of_between hlon.1 hlon.2 (by decide +kernel) (by decide +kernel)⟩
  have hglobe : isOnGlobe lat lon = true := by simp [isOnGlobe, hlat, hlon]
  exact ⟨_, by rw [Location.ofDegrees, dif_pos hfinite, dif_pos hglobe]⟩

end RoadNames
