import RoadNames.Proofs.Json.Scalar
set_option autoImplicit false

namespace RoadNames.Json

open Decimal

/-- One value is inside the other, or is the other. -/
inductive Within : Json → Json → Prop where
  | self (v : Json) : Within v v
  | item {u v : Json} {items : List Json} (hv : v ∈ items) (hu : Within u v) : Within u (arr items)
  | field {u v : Json} {key : String} {fields : Fields} (hv : (key, v) ∈ fields) (hu : Within u v) :
    Within u (obj fields)

@[simp] theorem within_arr_iff {u : Json} {items : List Json} :
    Within u (arr items) ↔ u = arr items ∨ ∃ v ∈ items, Within u v := by
  constructor
  · rintro (_ | ⟨hv, hu⟩)
    · exact .inl rfl
    · exact .inr ⟨_, hv, hu⟩
  · rintro (rfl | ⟨v, hv, hu⟩)
    · exact .self _
    · exact .item hv hu

@[simp] theorem within_obj_iff {u : Json} {fields : Fields} :
    Within u (obj fields) ↔ u = obj fields ∨ ∃ f ∈ fields, Within u f.2 := by
  constructor
  · rintro (_ | _ | ⟨hv, hu⟩)
    · exact .inl rfl
    · exact .inr ⟨_, hv, hu⟩
  · rintro (rfl | ⟨f, hf, hu⟩)
    · exact .self _
    · exact .field hf hu

@[simp] theorem within_iff_of_scalar {u v : Json} (hitems : ∀ items, v ≠ arr items)
    (hfields : ∀ fields, v ≠ obj fields) : Within u v ↔ u = v := by
  constructor
  · rintro (_ | _ | _)
    · rfl
    · exact absurd rfl (hitems _)
    · exact absurd rfl (hfields _)
  · rintro rfl
    exact .self _

/-- No object inside has a key twice. -/
def DistinctKeys (v : Json) : Prop := ∀ fields : Fields, Within (obj fields) v → fields.keys.Nodup

/-- The integers inside are short enough to be written. -/
def Short (v : Json) : Prop := ∀ n, Within (int n) v → n.natAbs < 10 ^ digitLimit

/-- The finite doubles inside are read back where their texts stand alone. -/
def FloatsReadBack (v : Json) : Prop :=
  ∀ x, Within (float x) v → isFinite x = true → parse? (write documentStyle (float x)) = some (float x)

theorem inside_out {motive : Json → Prop} (null : motive null) (bool : ∀ b, motive (bool b))
    (int : ∀ n, motive (int n)) (float : ∀ x, motive (float x)) (str : ∀ s, motive (str s))
    (arr : ∀ items, (∀ v ∈ items, motive v) → motive (arr items))
    (obj : ∀ fields, (∀ f ∈ fields, motive f.2) → motive (obj fields)) : ∀ v, motive v
  | .null => null
  | .bool b => bool b
  | .int n => int n
  | .float x => float x
  | .str s => str s
  | .arr items => arr items fun v _hv => inside_out null bool int float str arr obj v
  | .obj fields => obj fields fun f _hf => inside_out null bool int float str arr obj f.2
termination_by v => sizeOf v
decreasing_by
  · have hlt := List.sizeOf_lt_of_mem _hv
    rw [Json.arr.sizeOf_spec]
    omega
  · have hlt := List.sizeOf_lt_of_mem _hf
    obtain ⟨key, v⟩ := f
    rw [Prod.mk.sizeOf_spec] at hlt
    rw [Json.obj.sizeOf_spec]
    dsimp only
    omega

theorem areWritable_iff (items : List Json) : areWritable items = true ↔ ∀ v ∈ items, v.isWritable = true := by
  induction items with
  | nil => simp [areWritable]
  | cons v rest ih => simp [areWritable, ih]

theorem areWritableFields_iff (fields : Fields) :
    areWritableFields fields = true ↔ ∀ f ∈ fields, f.2.isWritable = true := by
  induction fields with
  | nil => simp [areWritableFields]
  | cons f rest ih => simp [areWritableFields, ih]

theorem short_arr_iff {items : List Json} : (arr items).Short ↔ ∀ v ∈ items, v.Short := by
  simp only [Short, within_arr_iff, reduceCtorEq, false_or]
  exact ⟨fun h v hv n hn => h n ⟨v, hv, hn⟩, fun h n ⟨v, hv, hn⟩ => h v hv n hn⟩

theorem short_obj_iff {fields : Fields} : (obj fields).Short ↔ ∀ f ∈ fields, f.2.Short := by
  simp only [Short, within_obj_iff, reduceCtorEq, false_or]
  exact ⟨fun h f hf n hn => h n ⟨f, hf, hn⟩, fun h n ⟨f, hf, hn⟩ => h f hf n hn⟩

theorem isWritable_iff (v : Json) : v.isWritable = true ↔ v.Short := by
  induction v using inside_out with
  | null => simp [isWritable, Short]
  | bool b => simp [isWritable, Short]
  | int n => simp [isWritable, Short, isShort_iff]
  | float x => simp [isWritable, Short]
  | str s => simp [isWritable, Short]
  | arr items ih =>
    rw [isWritable, areWritable_iff, short_arr_iff]
    exact forall₂_congr ih
  | obj fields ih =>
    rw [isWritable, areWritableFields_iff, short_obj_iff]
    exact forall₂_congr ih

instance (v : Json) : Decidable v.Short := decidable_of_iff _ (isWritable_iff v)

theorem digitValue_lt {c : Char} (h : isPlainDigit c = true) : c.toNat - 48 < 10 := by
  have hlast : c ≤ '9' := by
    unfold isPlainDigit at h
    simpa using (Bool.and_eq_true_iff.mp h).2
  have hle : c.toNat ≤ 57 := UInt32.le_iff_toNat_le.mp hlast
  omega

theorem natOf_lt {ds : List Char} (h : ∀ c ∈ ds, isPlainDigit c = true) (before : Nat) :
    natOf before ds < (before + 1) * 10 ^ ds.length := by
  induction ds generalizing before with
  | nil => simp [natOf]
  | cons c ds ih =>
    have hdigit := digitValue_lt (h c (by simp))
    have hrest := ih (fun d hd => h d (by simp [hd])) (10 * before + (c.toNat - 48))
    rw [natOf, List.foldl_cons, ← natOf]
    refine hrest.trans_le ?_
    rw [List.length_cons, Nat.pow_succ, Nat.mul_comm (10 ^ ds.length), ← Nat.mul_assoc]
    exact Nat.mul_le_mul_right _ (by omega)

theorem isPlainDigit_of_mem_readDigits? {s ds rest : List Char} (h : readDigits? s = some (ds, rest)) :
    ∀ c ∈ ds, isPlainDigit c = true := by
  unfold readDigits? at h
  split at h
  · cases h
    simp [isPlainDigit]
  · dsimp only at h
    split at h
    · cases h
    · cases h
      exact fun c hc => List.mem_takeWhile_imp hc

@[simp] theorem short_int_iff {n : Int} : (int n).Short ↔ n.natAbs < 10 ^ digitLimit := by
  simp [Short]

theorem short_of_readNumber {negative : Bool} {s rest : List Char} {v : Json}
    (h : readNumber negative s = .ok (v, rest)) : v.Short := by
  unfold readNumber at h
  split at h
  · cases h
  · rename_i whole _ hdigits
    dsimp only at h
    split at h
    · split at h
      · rename_i hlimit
        cases h
        have hvalue := natOf_lt (isPlainDigit_of_mem_readDigits? hdigits) 0
        have hbound : 10 ^ whole.length ≤ 10 ^ digitLimit := Nat.pow_le_pow_right (by decide) hlimit
        have habs : (negateInt negative (natOf 0 whole)).natAbs = natOf 0 whole := by
          cases negative <;> simp [negateInt]
        rw [short_int_iff, habs]
        omega
      · cases h
    · cases h
      simp [Short]

theorem short_of_readScalar {s rest : List Char} {v : Json} (h : readScalar s = .ok (v, rest)) : v.Short := by
  unfold readScalar at h
  split at h
  · rename_i read hread
    cases h
    obtain ⟨⟨word, value⟩, hmem, hword⟩ := List.exists_of_findSome?_eq_some hread
    obtain ⟨_, _, hvalue⟩ := Option.map_eq_some_iff.mp hword
    cases hvalue
    simp only [constants, List.mem_cons, Prod.mk.injEq, List.not_mem_nil, or_false] at hmem
    rcases hmem with ⟨_, rfl⟩ | ⟨_, rfl⟩ | ⟨_, rfl⟩ | ⟨_, rfl⟩ | ⟨_, rfl⟩ | ⟨_, rfl⟩ <;> simp [Short]
  · split at h <;> exact short_of_readNumber h

/-- With some fuel, only what is short is read, if all that was read before it is short. -/
structure ReadsShort (fuel : Nat) : Prop where
  value : ∀ s v rest, readValue fuel s = .ok (v, rest) → v.Short
  items : ∀ done s v rest, (∀ u ∈ done, u.Short) → readItems fuel done s = .ok (v, rest) → v.Short
  fields : ∀ (done : Fields) s v rest, (∀ f ∈ done, f.2.Short) → readFields fuel done s = .ok (v, rest) → v.Short

namespace ReadsShort

variable {fuel : Nat} {s rest : List Char} {v : Json}

theorem value_succ (ih : ReadsShort fuel) (h : readValue (fuel + 1) s = .ok (v, rest)) : v.Short := by
  unfold readValue at h
  split at h
  · split at h
    · cases h
    · cases h
      simp [Short]
  · split at h
    · cases h
      exact short_arr_iff.mpr (by simp)
    · exact ih.items [] _ v rest (by simp) h
  · split at h
    · cases h
      exact short_obj_iff.mpr (by simp)
    · exact ih.fields [] _ v rest (by simp) h
  · exact short_of_readScalar h

theorem items_succ (ih : ReadsShort fuel) {done : List Json} (hdone : ∀ u ∈ done, u.Short)
    (h : readItems (fuel + 1) done s = .ok (v, rest)) : v.Short := by
  unfold readItems at h
  split at h
  · cases h
  · rename_i u _ hu
    have hshort : ∀ w ∈ u :: done, w.Short := List.forall_mem_cons.mpr ⟨ih.value _ u _ hu, hdone⟩
    split at h
    · exact ih.items _ _ v rest hshort h
    · cases h
      exact short_arr_iff.mpr fun w hw => hshort w (List.mem_reverse.mp hw)
    · cases h

theorem fields_succ (ih : ReadsShort fuel) {done : Fields} (hdone : ∀ f ∈ done, f.2.Short)
    (h : readFields (fuel + 1) done s = .ok (v, rest)) : v.Short := by
  unfold readFields at h
  split at h
  case h_2 => cases h
  split at h
  case h_1 => cases h
  rename_i key _ _
  split at h
  case h_2 => cases h
  split at h
  case h_1 => cases h
  rename_i u _ hu
  have hshort : ∀ f ∈ (key, u) :: done, f.2.Short := List.forall_mem_cons.mpr ⟨ih.value _ u _ hu, hdone⟩
  split at h
  · exact ih.fields _ _ v rest hshort h
  · cases h
    refine short_obj_iff.mpr fun f hf => hshort f ?_
    exact List.mem_reverse.mp ((Table.mem_setAll hf).resolve_left List.not_mem_nil)
  · cases h

end ReadsShort

theorem readsShort (fuel : Nat) : ReadsShort fuel := by
  induction fuel with
  | zero =>
    constructor
    · rintro s v rest ⟨⟩
    · rintro done s v rest - ⟨⟩
    · rintro done s v rest - ⟨⟩
  | succ fuel ih =>
    constructor
    · exact fun s v rest h => ih.value_succ h
    · exact fun done s v rest hdone h => ih.items_succ hdone h
    · exact fun done s v rest hdone h => ih.fields_succ hdone h

/-- What is read from a document can be written into one. -/
theorem short_of_read {s : List Char} {v : Json} (h : read s = .ok v) : v.Short := by
  unfold read at h
  split at h
  · cases h
  · rename_i w rest hread
    split at h
    · cases h
      exact (readsShort _).value _ _ _ hread
    · cases h

end RoadNames.Json
