import Mathlib.Logic.Relation
import RoadNames.Network.Basic
set_option autoImplicit false

/-!
What a walk reaches. One that ends well lists all that chains of steps lead to from its start, each once
and without the start, and has expanded all of it; one that fails came to something that cannot be
expanded. Nothing else has a part in it.
-/

namespace RoadNames.Walk

open Relation

variable {α ε : Type}

/-- To go on from one thing to another is to be offered it on expansion. -/
def Step (expand : α → Except ε (List α)) (x y : α) : Prop :=
  ∃ candidates, expand x = .ok candidates ∧ y ∈ candidates

variable [DecidableEq α]

theorem mem_discover_found (xs hidden : List α) (y : α) :
    y ∈ (discover xs hidden).1 ↔ y ∈ xs ∧ y ∈ hidden := by
  induction xs generalizing hidden with
  | nil => simp [discover]
  | cons x xs ih =>
    by_cases hx : x ∈ hidden
    · by_cases hy : y = x
      · subst hy; simp [discover, hx]
      · simp [discover, hx, ih, hy]
    · by_cases hy : y = x
      · subst hy; simp [discover, hx, ih]
      · simp [discover, hx, ih, hy]

theorem mem_discover_left (xs hidden : List α) (y : α) :
    y ∈ (discover xs hidden).2 ↔ y ∈ hidden ∧ y ∉ xs := by
  induction xs generalizing hidden with
  | nil => simp [discover]
  | cons x xs ih =>
    by_cases hx : x ∈ hidden
    · by_cases hy : y = x
      · subst hy; simp [discover, hx, ih]
      · simp [discover, hx, ih, hy]
    · by_cases hy : y = x
      · subst hy; simp [discover, hx, ih]
      · simp [discover, hx, ih, hy]

theorem nodup_discover_found (xs hidden : List α) : (discover xs hidden).1.Nodup := by
  induction xs generalizing hidden with
  | nil => simp [discover]
  | cons x xs ih =>
    by_cases hx : x ∈ hidden
    · simp [discover, hx, ih, mem_discover_found]
    · simpa [discover, hx] using ih hidden

variable {expand : α → Except ε (List α)}

theorem walkFrom_sound {hidden queue out : List α} (h : walkFrom expand hidden queue = .ok out) :
    ∀ y ∈ out, y ∈ hidden ∧ ∃ q ∈ queue, TransGen (Step expand) q y := by
  fun_induction walkFrom expand hidden queue generalizing out with
  | case1 hidden => cases h; simp
  | case2 => cases h
  | case3 => cases h
  | case4 hidden x rest candidates hx later hlater ih =>
    cases h
    intro y hy
    have hfound : ∀ z, z ∈ (discover candidates hidden).1 → z ∈ hidden ∧ Step expand x z :=
      fun z hz =>
        have hz := (mem_discover_found candidates hidden z).mp hz
        ⟨hz.2, candidates, hx, hz.1⟩
    rcases List.mem_append.mp hy with hy | hy
    · obtain ⟨hh, hs⟩ := hfound y hy
      exact ⟨hh, x, List.mem_cons_self, .single hs⟩
    · obtain ⟨hl, q, hq, hqy⟩ := ih hlater y hy
      refine ⟨((mem_discover_left candidates hidden y).mp hl).1, ?_⟩
      rcases List.mem_append.mp hq with hq | hq
      · exact ⟨q, List.mem_cons_of_mem x hq, hqy⟩
      · exact ⟨x, List.mem_cons_self, .head (hfound q hq).2 hqy⟩

theorem walkFrom_nodup {hidden queue out : List α} (h : walkFrom expand hidden queue = .ok out) :
    out.Nodup := by
  fun_induction walkFrom expand hidden queue generalizing out with
  | case1 => cases h; exact List.nodup_nil
  | case2 => cases h
  | case3 => cases h
  | case4 hidden x rest candidates hx later hlater ih =>
    cases h
    refine List.nodup_append.mpr ⟨nodup_discover_found candidates hidden, ih hlater, ?_⟩
    -- what is found later was left by this discovery
    intro y hy z hz hyz
    have hleft := (mem_discover_left candidates hidden z).mp (walkFrom_sound hlater z hz).1
    exact hleft.2 (hyz ▸ ((mem_discover_found candidates hidden y).mp hy).1)

/-- All that was queued or listed has been expanded, and nothing that was hidden and offered is missed. -/
theorem walkFrom_closed {hidden queue out : List α} (h : walkFrom expand hidden queue = .ok out) :
    ∀ x, x ∈ queue ∨ x ∈ out →
      ∃ candidates, expand x = .ok candidates ∧ ∀ y ∈ candidates, y ∈ hidden → y ∈ out := by
  fun_induction walkFrom expand hidden queue generalizing out with
  | case1 hidden => cases h; simp
  | case2 => cases h
  | case3 => cases h
  | case4 hidden x rest candidates hx later hlater ih =>
    cases h
    intro z hz
    by_cases hzx : z = x
    · subst hzx
      refine ⟨candidates, hx, fun y hy hh => ?_⟩
      exact List.mem_append_left later ((mem_discover_found candidates hidden y).mpr ⟨hy, hh⟩)
    · have hz' : z ∈ rest ++ (discover candidates hidden).1 ∨ z ∈ later := by
        rw [List.mem_cons, List.mem_append] at hz
        rw [List.mem_append, or_assoc]
        exact hz.imp_left fun h => h.resolve_left hzx
      obtain ⟨offered, hoffered, hclosed⟩ := ih hlater z hz'
      refine ⟨offered, hoffered, fun y hy hh => ?_⟩
      by_cases hc : y ∈ candidates
      · exact List.mem_append_left later ((mem_discover_found candidates hidden y).mpr ⟨hc, hh⟩)
      · exact List.mem_append_right _ (hclosed y hy ((mem_discover_left candidates hidden y).mpr ⟨hh, hc⟩))

theorem walkFrom_error {hidden queue : List α} {e : ε} (h : walkFrom expand hidden queue = .error e) :
    ∃ q ∈ queue, ∃ x, ReflTransGen (Step expand) q x ∧ expand x = .error e := by
  fun_induction walkFrom expand hidden queue generalizing e with
  | case1 => cases h
  | case2 hidden x rest e' hx =>
    cases h
    exact ⟨x, List.mem_cons_self, x, .refl, hx⟩
  | case3 hidden x rest candidates hx e' he ih =>
    cases h
    obtain ⟨q, hq, z, hqz, hz⟩ := ih he
    rcases List.mem_append.mp hq with hq | hq
    · exact ⟨q, List.mem_cons_of_mem x hq, z, hqz, hz⟩
    · have hstep : Step expand x q :=
        ⟨candidates, hx, ((mem_discover_found candidates hidden q).mp hq).1⟩
      exact ⟨x, List.mem_cons_self, z, .head hstep hqz, hz⟩
  | case4 => cases h

theorem discover_congr {xs hidden other : List α} (h : ∀ y ∈ xs, y ∈ other ↔ y ∈ hidden) :
    (discover xs other).1 = (discover xs hidden).1 := by
  induction xs generalizing hidden other with
  | nil => rfl
  | cons x xs ih =>
    have hrest : ∀ y ∈ xs, y ∈ other ↔ y ∈ hidden := fun y hy => h y (List.mem_cons_of_mem x hy)
    by_cases hx : x ∈ hidden
    · have hx' : x ∈ other := (h x List.mem_cons_self).mpr hx
      have hleft : ∀ y ∈ xs, y ∈ other.filter (· ≠ x) ↔ y ∈ hidden.filter (· ≠ x) := by
        intro y hy
        rw [List.mem_filter, List.mem_filter, hrest y hy]
      simp only [discover, hx, hx', ↓reduceIte, ih hleft]
    · have hx' : x ∉ other := mt (h x List.mem_cons_self).mp hx
      simpa [discover, hx, hx'] using ih hrest

section Agreement

variable {Seen : α → Prop} (hclosed : ∀ x y, Seen x → Step expand x y → Seen y)
include hclosed

/-- One expansion finds the same, and leaves the same of all that is seen, if no other part of what is
hidden differs. -/
theorem discover_agree {hidden hidden' rest candidates : List α} {x : α} (hqueue : ∀ q ∈ x :: rest, Seen q)
    (hx : expand x = .ok candidates) (hhidden : ∀ y, Seen y → (y ∈ hidden' ↔ y ∈ hidden)) :
    (discover candidates hidden').1 = (discover candidates hidden).1 ∧
      (∀ q ∈ rest ++ (discover candidates hidden).1, Seen q) ∧
      ∀ y, Seen y → (y ∈ (discover candidates hidden').2 ↔ y ∈ (discover candidates hidden).2) := by
  have hoffered : ∀ y ∈ candidates, Seen y := fun y hy =>
    hclosed x y (hqueue x List.mem_cons_self) ⟨candidates, hx, hy⟩
  refine ⟨discover_congr fun y hy => hhidden y (hoffered y hy), fun q hq => ?_, fun y hy => ?_⟩
  · rcases List.mem_append.mp hq with hq | hq
    · exact hqueue q (List.mem_cons_of_mem x hq)
    · exact hoffered q ((mem_discover_found candidates hidden q).mp hq).1
  · rw [mem_discover_left, mem_discover_left, hhidden y hy]

theorem walkFrom_congr {other : α → Except ε (List α)} {hidden hidden' queue : List α}
    (hqueue : ∀ x ∈ queue, Seen x) (hsame : ∀ x, Seen x → other x = expand x)
    (hhidden : ∀ x, Seen x → (x ∈ hidden' ↔ x ∈ hidden)) :
    walkFrom other hidden' queue = walkFrom expand hidden queue := by
  fun_induction walkFrom expand hidden queue generalizing hidden' with
  | case1 => simp [walkFrom]
  | case2 hidden x rest e hx =>
    rw [walkFrom, hsame x (hqueue x List.mem_cons_self), hx]
  | case3 hidden x rest candidates hx e he ih =>
    obtain ⟨hfound, hqueue', hhidden'⟩ := discover_agree hclosed hqueue hx hhidden
    rw [walkFrom, hsame x (hqueue x List.mem_cons_self), hx]
    simp only [hfound, ih hqueue' hhidden', he]
  | case4 hidden x rest candidates hx later hlater ih =>
    obtain ⟨hfound, hqueue', hhidden'⟩ := discover_agree hclosed hqueue hx hhidden
    rw [walkFrom, hsame x (hqueue x List.mem_cons_self), hx]
    simp only [hfound, ih hqueue' hhidden', hlater]

end Agreement

section Whole

variable {domain : List α} {start : α}

theorem walk_nodup {out : List α} (h : walk expand domain start = .ok out) : out.Nodup :=
  walkFrom_nodup h

theorem walk_error {e : ε} (h : walk expand domain start = .error e) :
    ∃ x, ReflTransGen (Step expand) start x ∧ expand x = .error e := by
  obtain ⟨q, hq, hx⟩ := walkFrom_error h
  rw [List.mem_singleton.mp hq] at hx
  exact hx

theorem mem_walk_of_reach (hdomain : ∀ x y, Step expand x y → y ∈ domain) {out : List α}
    (h : walk expand domain start = .ok out) {y : α} (hy : ReflTransGen (Step expand) start y) :
    y = start ∨ y ∈ out := by
  induction hy with
  | refl => exact .inl rfl
  | @tail x y _ hxy ih =>
    have hx : x ∈ [start] ∨ x ∈ out := ih.imp_left List.mem_singleton.mpr
    obtain ⟨candidates, hcandidates, hclosed⟩ := walkFrom_closed h x hx
    obtain ⟨offered, hoffered, hmem⟩ := hxy
    have hsame : offered = candidates := Except.ok.inj (hoffered.symm.trans hcandidates)
    by_cases hs : y = start
    · exact .inl hs
    · refine .inr (hclosed y (hsame ▸ hmem) (List.mem_filter.mpr ⟨?_, decide_eq_true hs⟩))
      exact hdomain x y ⟨offered, hoffered, hmem⟩

theorem mem_walk_iff (hdomain : ∀ x y, Step expand x y → y ∈ domain) {out : List α}
    (h : walk expand domain start = .ok out) (y : α) :
    y ∈ out ↔ y ≠ start ∧ TransGen (Step expand) start y := by
  constructor
  · intro hy
    obtain ⟨hhidden, q, hq, hqy⟩ := walkFrom_sound h y hy
    rw [List.mem_singleton.mp hq] at hqy
    exact ⟨of_decide_eq_true (List.mem_filter.mp hhidden).2, hqy⟩
  · intro hy
    exact (mem_walk_of_reach hdomain h hy.2.to_reflTransGen).resolve_left hy.1

theorem walk_fails_iff (hdomain : ∀ x y, Step expand x y → y ∈ domain) :
    (∃ e, walk expand domain start = .error e) ↔
      ∃ x e, ReflTransGen (Step expand) start x ∧ expand x = .error e := by
  constructor
  · intro h
    obtain ⟨e, h⟩ := h
    obtain ⟨x, hx, he⟩ := walk_error h
    exact ⟨x, e, hx, he⟩
  · intro h
    obtain ⟨x, e, hx, he⟩ := h
    cases h : walk expand domain start with
    | error e => exact ⟨e, rfl⟩
    | ok out =>
      have hmem : x ∈ [start] ∨ x ∈ out :=
        (mem_walk_of_reach hdomain h hx).imp_left List.mem_singleton.mpr
      obtain ⟨candidates, hcandidates, _⟩ := walkFrom_closed h x hmem
      rw [he] at hcandidates
      cases hcandidates

theorem walk_congr {other : α → Except ε (List α)} {domain' : List α}
    (hsame : ∀ x, ReflTransGen (Step expand) start x → other x = expand x)
    (hdomain : ∀ x y, Step expand x y → y ∈ domain) (hdomain' : ∀ x y, Step expand x y → y ∈ domain') :
    walk other domain' start = walk expand domain start := by
  refine walkFrom_congr (fun _ _ h => ReflTransGen.tail h) ?_ hsame fun x hx => ?_
  · intro x hx
    exact List.mem_singleton.mp hx ▸ .refl
  · rw [List.mem_filter, List.mem_filter]
    refine and_congr_left fun hne => ?_
    rcases reflTransGen_iff_eq_or_transGen.mp hx with hstart | hlater
    · exact absurd hstart (of_decide_eq_true hne)
    · obtain ⟨w, _, hw⟩ := TransGen.tail'_iff.mp hlater
      exact iff_of_true (hdomain' w x hw) (hdomain w x hw)

end Whole

end RoadNames.Walk
