import Mathlib.Data.Fin.Basic
import Mathlib.Data.List.FinRange
import Mathlib.Data.List.Nodup
import Mathlib.Data.Set.List
import RoadNames.Proofs.Basic
import RoadNames.Proofs.Decimal.Overflow
import RoadNames.Random
set_option autoImplicit false

namespace RoadNames.Random

theorem Generator.scaled_lt {size : Nat} (hsize : 0 < size) (tries : Nat) (g : Generator) :
    (scaled size tries g).1 < size := by
  have hword : ∀ v : UInt32, v.toNat * size / wordCount < size := fun v =>
    Nat.div_lt_of_lt_mul (Nat.mul_lt_mul_of_pos_right v.toNat_lt hsize)
  induction tries generalizing g with
  | zero => exact hword _
  | succ tries ih =>
    simp only [scaled]
    split
    · exact ih _
    · exact hword _

theorem Generator.upTo_le (bound : Nat) (g : Generator) : (upTo bound g).1 ≤ bound := by
  unfold upTo
  split
  · exact Nat.zero_le bound
  · exact Nat.lt_succ_iff.mp (scaled_lt (Nat.succ_pos bound) maxRefusals g)

namespace Choice

theorem swapIfInBounds_perm (a : Array Nat) (i j : Nat) : (a.swapIfInBounds i j).toList.Perm a.toList := by
  rw [Array.swapIfInBounds_def]
  split
  · split
    · exact (Array.swap_perm _ _).toList
    · exact .refl _
  · exact .refl _

theorem shuffleDown_perm (first last : Nat) (a : Array Nat) (g : Generator) :
    (shuffleDown first last a g).1.toList.Perm a.toList := by
  induction last generalizing a g with
  | zero => exact .refl _
  | succ last ih =>
    simp only [shuffleDown]
    split
    · exact .refl _
    · exact (ih _ _).trans (swapIfInBounds_perm a last _)

/-- What is taken stays below the next place, so that the place itself is free where the draw is not. -/
theorem nodup_pick (count place : Nat) (taken : List Nat) (g : Generator) (hnodup : taken.Nodup)
    (hbelow : ∀ v ∈ taken, v < place) : (pick count place taken g).1.Nodup := by
  induction count generalizing place taken g with
  | zero => exact List.nodup_reverse.mpr hnodup
  | succ count ih =>
    have hdraw := Generator.upTo_le place g
    simp only [pick]
    apply ih
    · refine List.nodup_cons.mpr ⟨?_, hnodup⟩
      split
      case isTrue => exact fun hplace => Nat.lt_irrefl place (hbelow place hplace)
      case isFalse hfree => simpa using hfree
    · intro v hv
      rcases List.mem_cons.mp hv with rfl | hv
      · split <;> omega
      · exact Nat.lt_succ_of_lt (hbelow v hv)

theorem length_pick (count place : Nat) (taken : List Nat) (g : Generator) :
    (pick count place taken g).1.length = count + taken.length := by
  induction count generalizing place taken g with
  | zero => simp [pick]
  | succ count ih => rw [pick, ih, List.length_cons]; omega

theorem lt_of_mem_pick (count place : Nat) (taken : List Nat) (g : Generator)
    (hbelow : ∀ v ∈ taken, v < place + count) {v : Nat} (h : v ∈ (pick count place taken g).1) :
    v < place + count := by
  induction count generalizing place taken g with
  | zero => exact hbelow v (by simpa [pick] using h)
  | succ count ih =>
    have hdraw := Generator.upTo_le place g
    simp only [pick] at h
    refine Nat.lt_of_lt_of_eq (ih (place + 1) _ _ (fun w hw => ?_) h) (by omega)
    rcases List.mem_cons.mp hw with rfl | hw
    · split <;> omega
    · exact Nat.lt_of_lt_of_eq (hbelow w hw) (by omega)

theorem length_distinct {size count : Nat} (h : count ≤ size) (g : Generator) :
    (distinct size count g).1.length = count := by
  unfold distinct
  split
  · have hlength := (shuffleDown_perm (max (size - count) 1) size (Array.range size) g).length_eq
    simp only [List.length_drop, hlength, Array.toList_range, List.length_range]
    omega
  · rw [(shuffleDown_perm ..).length_eq, List.toList_toArray, length_pick, List.length_nil, Nat.add_zero]

theorem lt_of_mem_distinct {size count v : Nat} (hcount : count ≤ size) {g : Generator}
    (h : v ∈ (distinct size count g).1) : v < size := by
  unfold distinct at h
  split at h
  · have hmem := (shuffleDown_perm ..).subset (List.mem_of_mem_drop h)
    simpa using hmem
  · have hmem := (shuffleDown_perm ..).subset h
    have hlt := lt_of_mem_pick count (size - count) [] g (by simp) hmem
    omega

theorem nodup_distinct (size count : Nat) (g : Generator) : (distinct size count g).1.Nodup := by
  unfold distinct
  split
  · have hperm := shuffleDown_perm (max (size - count) 1) size (Array.range size) g
    have hall : (Array.range size).toList.Nodup := by simpa using List.nodup_range
    exact (hperm.nodup_iff.mpr hall).sublist (List.drop_sublist _ _)
  · have hperm := shuffleDown_perm 1 count (pick count (size - count) [] g).1.toArray
      (pick count (size - count) [] g).2
    exact hperm.nodup_iff.mpr (nodup_pick count _ [] g List.nodup_nil (by simp))

end Choice

/-- All that a sample needs of the places: they are below the bound, differ, and are as many as asked for. -/
structure Chooser.Sound (choose : Chooser) : Prop where
  length {size count : Nat} (h : count ≤ size) (g : Generator) : (choose size count g).1.length = count
  below {size count : Nat} (h : count ≤ size) (g : Generator) : ∀ v ∈ (choose size count g).1, v < size
  nodup {size count : Nat} (h : count ≤ size) (g : Generator) : (choose size count g).1.Nodup

theorem Choice.sound_distinct : Chooser.Sound distinct where
  length := length_distinct
  below h _ _ := lt_of_mem_distinct h
  nodup _ := nodup_distinct _ _

variable {α : Type} {choose : Chooser} {xs ys : List α} {fraction : Float} {g g' : Generator}

theorem pickPlaces_eq_map (xs : List α) {chosen : List Nat} (hnodup : chosen.Nodup)
    (hbelow : ∀ i ∈ chosen, i < xs.length) :
    ∃ places : List (Fin xs.length), (places.map (·.val)).Perm chosen ∧ places.Pairwise (· < ·) ∧
      pickPlaces xs chosen = places.map (xs[·]) := by
  have hperm : (chosen.mergeSort (· ≤ ·)).Perm chosen := List.mergeSort_perm ..
  have hsorted : (chosen.mergeSort (· ≤ ·)).Pairwise (· < ·) := by
    have hkeys : (chosen.map id).Nodup := by simpa using hnodup
    simpa using pairwise_lt_mergeSort id (fun i j => decide_eq_true_iff) hkeys
  have hlt : ∀ i ∈ chosen.mergeSort (· ≤ ·), i < xs.length := fun i hi => hbelow i (hperm.subset hi)
  unfold pickPlaces
  generalize chosen.mergeSort (· ≤ ·) = sorted at hperm hsorted hlt ⊢
  lift sorted to List (Fin xs.length) using hlt
  have hordered : sorted.Pairwise fun i j => i.val < j.val := List.pairwise_map.mp hsorted
  refine ⟨sorted, hperm, hordered, ?_⟩
  rw [List.filterMap_map, ← List.filterMap_eq_map]
  congr 1
  funext i
  simp

theorem Chooser.Sound.pickPlaces (hchoose : choose.Sound) (xs : List α) {count : Nat} (h : count ≤ xs.length)
    (g : Generator) :
    ∃ places : List (Fin xs.length), (places.map (·.val)).Perm (choose xs.length count g).1 ∧
      places.Pairwise (· < ·) ∧ places.length = count ∧
      Random.pickPlaces xs (choose xs.length count g).1 = places.map (xs[·]) := by
  obtain ⟨places, hperm, hordered, htaken⟩ := pickPlaces_eq_map xs (hchoose.nodup h g) (hchoose.below h g)
  have hlength := hperm.length_eq
  rw [List.length_map, hchoose.length h] at hlength
  exact ⟨places, hperm, hordered, hlength, htaken⟩

/-- The product of the length and the fraction as doubles, rounded to an integer, but at least one. -/
def IsShare (length : Nat) (fraction : Float) (count : Nat) : Prop :=
  ∃ b k, Decimal.binary? (Decimal.floatOfInt length * fraction) = some b ∧
    Decimal.NearestEven b.value k ∧ (count : Int) = max 1 k

variable {length count : Nat}

theorem IsShare.pos (h : IsShare length fraction count) : 0 < count := by
  obtain ⟨_, k, _, _, hcount⟩ := h
  omega

theorem sampleSize_eq_ok_iff : sampleSize length fraction = .ok count ↔ IsShare length fraction count := by
  have hleast : ∀ k : Int, max 1 k.toNat = count ↔ (count : Int) = max 1 k := by omega
  constructor
  · intro h
    unfold sampleSize at h
    cases hround : Decimal.roundInt? (Decimal.floatOfInt length * fraction) with
    | none => simp [hround] at h
    | some k =>
      obtain ⟨b, hb, hnearest⟩ := Decimal.roundInt?_eq_some_iff.mp hround
      simp only [hround, Except.ok.injEq] at h
      exact ⟨b, k, hb, hnearest, (hleast k).mp h⟩
  · rintro ⟨b, k, hb, hnearest, hcount⟩
    have hround := Decimal.roundInt?_eq_some_iff.mpr ⟨b, hb, hnearest⟩
    simp only [sampleSize, hround, (hleast k).mpr hcount]

section
variable (hpos : 0 < fraction) (hone : ¬ 1.0 ≤ fraction)
include hpos hone

theorem sampleSize_of_proper (hlength : length < Decimal.overflow) (hnonempty : 0 < length) :
    ∃ count ≤ length, sampleSize length fraction = .ok count := by
  obtain ⟨k, hk, hround⟩ := Decimal.roundInt?_share hlength hnonempty hpos hone
  exact ⟨max 1 k, by omega, by simp [sampleSize, hround]⟩

theorem sampleSize_of_beyond (hlength : Decimal.overflow ≤ length) :
    ∃ e, sampleSize length fraction = .error e := by
  simp only [sampleSize, Decimal.roundInt?_share_eq_none hlength hpos hone]
  exact ⟨_, rfl⟩

end

theorem sampleBy_of_whole (choose : Chooser) (h : 1.0 ≤ fraction ∨ xs = []) (g : Generator) :
    sampleBy choose xs fraction g = .ok (xs, g) := by
  have hall : (fraction ≥ 1.0 || xs.isEmpty) = true := by simpa using h
  rw [sampleBy, if_pos hall]

theorem sampleBy_of_part (choose : Chooser) (h : ¬ (1.0 ≤ fraction ∨ xs = [])) (g : Generator) :
    sampleBy choose xs fraction g = (sampleSize xs.length fraction).bind fun count =>
      if count > xs.length then .error .tooLarge
      else .ok (pickPlaces xs (choose xs.length count g).1, (choose xs.length count g).2) := by
  have hpart : ¬ (fraction ≥ 1.0 || xs.isEmpty) = true := by simpa using h
  rw [sampleBy, if_neg hpart]
  cases sampleSize xs.length fraction <;> rfl

theorem sampleBy_cases (h : sampleBy choose xs fraction g = .ok (ys, g')) :
    (1.0 ≤ fraction ∨ xs = []) ∧ ys = xs ∨
      ¬ (1.0 ≤ fraction ∨ xs = []) ∧ ∃ count ≤ xs.length, sampleSize xs.length fraction = .ok count ∧
        ys = pickPlaces xs (choose xs.length count g).1 := by
  by_cases hwhole : 1.0 ≤ fraction ∨ xs = []
  · rw [sampleBy_of_whole choose hwhole] at h
    cases h
    exact .inl ⟨hwhole, rfl⟩
  · rw [sampleBy_of_part choose hwhole] at h
    cases hsize : sampleSize xs.length fraction with
    | error e =>
      rw [hsize] at h
      cases h
    | ok count =>
      simp only [hsize, Except.bind] at h
      split at h
      case isTrue => cases h
      case isFalse hcount =>
        cases h
        exact .inr ⟨hwhole, count, Nat.not_lt.mp hcount, rfl, rfl⟩

theorem sampleBy_ok_iff (choose : Chooser) (xs : List α) (hpos : 0 < fraction) (g : Generator) :
    (∃ ys g', sampleBy choose xs fraction g = .ok (ys, g')) ↔ 1.0 ≤ fraction ∨ xs.length < Decimal.overflow := by
  by_cases hwhole : 1.0 ≤ fraction ∨ xs = []
  · refine iff_of_true ⟨xs, g, sampleBy_of_whole choose hwhole g⟩ (hwhole.imp_right ?_)
    rintro rfl
    simpa using Decimal.overflow_pos
  · obtain ⟨hone, hne⟩ := not_or.mp hwhole
    rw [sampleBy_of_part choose hwhole, or_iff_right hone]
    by_cases hlength : xs.length < Decimal.overflow
    · obtain ⟨count, hcount, hsize⟩ := sampleSize_of_proper hpos hone hlength (List.length_pos_of_ne_nil hne)
      rw [hsize, Except.bind, if_neg (Nat.not_lt.mpr hcount)]
      exact iff_of_true ⟨_, _, rfl⟩ hlength
    · obtain ⟨e, hsize⟩ := sampleSize_of_beyond hpos hone (not_lt.mp hlength)
      rw [hsize]
      exact iff_of_false (by rintro ⟨ys, g', ⟨⟩⟩) hlength

/-- What a sample holds, in the order of the list: all of it, or so large a share at the places that are chosen. -/
structure Sampled (choose : Chooser) (xs : List α) (fraction : Float) (g : Generator) (ys : List α) : Prop where
  inOrder : ∃ places : List (Fin xs.length), places.Pairwise (· < ·) ∧ ys = places.map (xs[·]) ∧
    (¬ 1.0 ≤ fraction → xs ≠ [] → (places.map (·.val)).Perm (choose xs.length ys.length g).1)
  whole : 1.0 ≤ fraction → ys.length = xs.length
  share : ¬ 1.0 ≤ fraction → xs ≠ [] → IsShare xs.length fraction ys.length ∧ ys.length ≤ xs.length
  empty : xs = [] → ys.length = 0

theorem sampled_of_ok (hchoose : choose.Sound) (h : sampleBy choose xs fraction g = .ok (ys, g')) :
    Sampled choose xs fraction g ys := by
  rcases sampleBy_cases h with ⟨hwhole, rfl⟩ | ⟨hpart, count, hcount, hsize, rfl⟩
  · have hnone : ¬ 1.0 ≤ fraction → ys = [] := hwhole.resolve_left
    exact {
      inOrder := ⟨List.finRange ys.length, List.pairwise_lt_finRange _, (List.map_getElem_finRange ys).symm,
        fun hone hne => absurd (hnone hone) hne⟩
      whole := fun _ => rfl
      share := fun hone hne => absurd (hnone hone) hne
      empty := fun hnil => hnil ▸ List.length_nil }
  · obtain ⟨places, hperm, hordered, hlength, htaken⟩ := hchoose.pickPlaces xs hcount g
    have hys : (pickPlaces xs (choose xs.length count g).1).length = count := by
      rw [htaken, List.length_map, hlength]
    exact {
      inOrder := ⟨places, hordered, htaken, fun _ _ => hys.symm ▸ hperm⟩
      whole := fun hone => absurd (.inl hone) hpart
      share := fun _ _ => hys.symm ▸ ⟨sampleSize_eq_ok_iff.mp hsize, hcount⟩
      empty := fun hnil => absurd (.inr hnil) hpart }

theorem Sampled.sublist (h : Sampled choose xs fraction g ys) : ys.Sublist xs := by
  obtain ⟨places, hordered, rfl, _⟩ := h.inOrder
  exact List.map_getElem_sublist hordered

theorem Sampled.ne_nil (h : Sampled choose xs fraction g ys) (hne : xs ≠ []) : ys ≠ [] := by
  by_cases hone : 1.0 ≤ fraction
  · exact List.ne_nil_of_length_pos (h.whole hone ▸ List.length_pos_of_ne_nil hne)
  · exact List.ne_nil_of_length_pos (h.share hone hne).1.pos

theorem sampled_of_sample (h : sample xs fraction g = .ok (ys, g')) : Sampled Choice.distinct xs fraction g ys :=
  sampled_of_ok Choice.sound_distinct h

/-- Of every list a sample can be taken at every positive fraction, whatever the generator has drawn before: no list
in a memory is so long that its length is beyond the doubles. -/
theorem sample_in_order (xs : List α) (hpos : 0 < fraction) (g : Generator) :
    ((∃ ys g', sample xs fraction g = .ok (ys, g')) ↔ 1.0 ≤ fraction ∨ xs.length < Decimal.overflow) ∧
      ∀ ys g', sample xs fraction g = .ok (ys, g') → Sampled Choice.distinct xs fraction g ys :=
  ⟨sampleBy_ok_iff Choice.distinct xs hpos g, fun _ _ => sampled_of_sample⟩

def repeated : List Int := [8, 5, 5, 8, 2]

theorem sample_in_order_half_of_five :
    (0 : Float) < 0.5 ∧ ∃ ys g', sample repeated 0.5 (.ofEntropy [7]) = .ok (ys, g') ∧
      Sampled Choice.distinct repeated 0.5 (.ofEntropy [7]) ys ∧ ys.length = 2 := by
  have hpos : (0 : Float) < 0.5 := by decide +kernel
  have hone : ¬ (1.0 : Float) ≤ 0.5 := by decide +kernel
  have hfive : repeated.length = 5 := rfl
  obtain ⟨hok, hall⟩ := sample_in_order repeated hpos (.ofEntropy [7])
  obtain ⟨ys, g', h⟩ := hok.mpr (.inr (Decimal.natCast_lt_overflow (by omega)))
  have hsampled := hall ys g' h
  have hhalf : sampleSize repeated.length 0.5 = .ok 2 := by decide +kernel
  have hsize := sampleSize_eq_ok_iff.mpr (hsampled.share hone (List.cons_ne_nil _ _)).1
  exact ⟨hpos, ys, g', h, hsampled, (Except.ok.inj (hhalf.symm.trans hsize)).symm⟩

end RoadNames.Random
