set_option autoImplicit false

/-!
Tables that keep their keys in the order of first arrival. Writing to a key that is present replaces
its value and moves nothing; a new key goes to the end.
-/

namespace RoadNames

abbrev Table (κ α : Type) := List (κ × α)

namespace Table

variable {κ α : Type} [DecidableEq κ]

def get? : Table κ α → κ → Option α
  | [], _ => none
  | (k, v) :: rest, key => if k = key then some v else get? rest key

def set : Table κ α → κ → α → Table κ α
  | [], key, value => [(key, value)]
  | (k, v) :: rest, key, value =>
    if k = key then (key, value) :: rest else (k, v) :: set rest key value

def remove (t : Table κ α) (key : κ) : Table κ α := t.filter fun entry => entry.1 ≠ key

def keys (t : Table κ α) : List κ := t.map (·.1)

def setAll (t entries : Table κ α) : Table κ α := entries.foldl (fun t e => t.set e.1 e.2) t

theorem mem_of_get? {t : Table κ α} {key : κ} {value : α} (h : t.get? key = some value) :
    (key, value) ∈ t := by
  induction t with
  | nil => cases h
  | cons e rest ih =>
    obtain ⟨k', v'⟩ := e
    by_cases hk : k' = key
    · obtain rfl : v' = value := by simpa [get?, hk] using h
      rw [hk]
      exact List.mem_cons_self
    · exact List.mem_cons_of_mem _ (ih (by simpa [get?, hk] using h))

theorem get?_set (t : Table κ α) (key k : κ) (value : α) :
    (t.set key value).get? k = if key = k then some value else t.get? k := by
  induction t with
  | nil => simp [set, get?]
  | cons e rest ih =>
    obtain ⟨k', v'⟩ := e
    simp only [set]
    by_cases h : k' = key
    · subst h; by_cases hk : k' = k <;> simp [get?, hk]
    · by_cases hk : k' = k
      · subst hk; simp [get?, h, Ne.symm h]
      · simp [get?, h, hk, ih]

theorem keys_set (t : Table κ α) (key : κ) (value : α) :
    (t.set key value).keys = if key ∈ t.keys then t.keys else t.keys ++ [key] := by
  induction t with
  | nil => simp [set, keys]
  | cons e rest ih =>
    obtain ⟨k', v'⟩ := e
    simp only [keys] at ih
    by_cases h : k' = key
    · subst h; simp [set, keys]
    · by_cases hm : key ∈ rest.map (·.1) <;> simp_all [set, keys, Ne.symm h]

theorem set_of_not_mem {t : Table κ α} {key : κ} (h : key ∉ t.keys) (value : α) :
    t.set key value = t ++ [(key, value)] := by
  induction t with
  | nil => rfl
  | cons e t ih =>
    have hne : e.1 ≠ key := fun heq => h (heq ▸ List.mem_cons_self)
    have hrest : key ∉ Table.keys t := fun hmem => h (List.mem_cons_of_mem e.1 hmem)
    simp [set, hne, ih hrest]

theorem setAll_of_nodup {t entries : Table κ α} (h : (t ++ entries).keys.Nodup) :
    t.setAll entries = t ++ entries := by
  induction entries generalizing t with
  | nil => simp [setAll]
  | cons e entries ih =>
    have hkeys : (t.keys ++ e.1 :: keys entries).Nodup := by simpa [keys] using h
    have hfresh : e.1 ∉ t.keys := fun hmem =>
      (List.nodup_append.mp hkeys).2.2 e.1 hmem e.1 List.mem_cons_self rfl
    have hrest := ih (t := t ++ [e]) (by simpa using h)
    rw [setAll, List.foldl_cons, set_of_not_mem hfresh]
    simpa [setAll] using hrest

theorem mem_set {t : Table κ α} {key : κ} {value : α} {e : κ × α}
    (h : e ∈ t.set key value) : e = (key, value) ∨ e ∈ t := by
  induction t with
  | nil => exact .inl (List.mem_singleton.mp h)
  | cons first rest ih =>
    unfold set at h
    split at h
    · exact (List.mem_cons.mp h).imp_right (List.mem_cons_of_mem first)
    · rcases List.mem_cons.mp h with rfl | h
      · exact .inr List.mem_cons_self
      · exact (ih h).imp_right (List.mem_cons_of_mem first)

theorem mem_setAll {t entries : Table κ α} {e : κ × α}
    (h : e ∈ t.setAll entries) : e ∈ t ∨ e ∈ entries := by
  induction entries generalizing t with
  | nil => exact .inl h
  | cons first rest ih =>
    rcases ih h with h | h
    · rcases mem_set h with rfl | h
      · exact .inr List.mem_cons_self
      · exact .inl h
    · exact .inr (List.mem_cons_of_mem first h)

theorem keys_setAll (t entries : Table κ α)
    (h : (keys entries).Nodup) :
    (t.setAll entries).keys = t.keys ++ (keys entries).filter fun key => key ∉ t.keys := by
  induction entries generalizing t with
  | nil => simp [setAll, keys]
  | cons e entries ih =>
    obtain ⟨hnew, hrest⟩ := List.nodup_cons.mp (show (e.1 :: keys entries).Nodup from h)
    have hkeys : (t.setAll (e :: entries)).keys =
        (t.set e.1 e.2).keys ++ (keys entries).filter fun key => key ∉ (t.set e.1 e.2).keys := ih _ hrest
    have hcons : Table.keys (e :: entries) = e.1 :: keys entries := rfl
    rw [hkeys, hcons, keys_set]
    by_cases hmem : e.1 ∈ t.keys
    · rw [if_pos hmem, List.filter_cons_of_neg (by simpa using hmem)]
    · have hsame : (keys entries).filter (fun key => key ∉ t.keys ++ [e.1]) =
          (keys entries).filter fun key => key ∉ t.keys := by
        refine List.filter_congr fun key hkey => ?_
        have hne : key ≠ e.1 := fun heq => hnew (heq ▸ hkey)
        simp [hne]
      rw [if_neg hmem, hsame, List.filter_cons_of_pos (by simpa using hmem), List.append_assoc,
        List.singleton_append]

end Table

end RoadNames
