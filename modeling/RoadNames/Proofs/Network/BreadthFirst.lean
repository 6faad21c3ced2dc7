import Mathlib.Order.Lattice.Nat
import RoadNames.Proofs.Network.Walk
set_option autoImplicit false

namespace RoadNames

namespace Walk

open Relation

variable {α ε : Type} {expand : α → Except ε (List α)} {start : α}

/-- Goes on where something cannot be expanded, as if it had no neighbours. -/
def tolerant (expand : α → Except ε (List α)) (x : α) : Except ε (List α) :=
  .ok ((expand x).toOption.getD [])

def fault? (expand : α → Except ε (List α)) (x : α) : Option ε :=
  match expand x with
  | .ok _ => none
  | .error e => some e

theorem tolerant_of_ok {x : α} {candidates : List α} (h : expand x = .ok candidates) :
    tolerant expand x = .ok candidates := by simp [tolerant, h, Except.toOption]

theorem step_tolerant (expand : α → Except ε (List α)) : Step (tolerant expand) = Step expand := by
  funext x y
  cases h : expand x <;> simp [Step, tolerant, h, Except.toOption]

inductive Route (step : α → α → Prop) (start : α) : Nat → α → Prop where
  | here : Route step start 0 start
  | onward {n : Nat} {x y : α} (route : Route step start n x) (next : step x y) :
    Route step start (n + 1) y

noncomputable def depth (expand : α → Except ε (List α)) (start y : α) : Nat :=
  sInf {n | Route (Step expand) start n y}

theorem depth_tolerant (expand : α → Except ε (List α)) : depth (tolerant expand) = depth expand := by
  funext x y
  simp only [depth, step_tolerant]

section Depth

variable {x y : α}

theorem Route.reach {n : Nat} (h : Route (Step expand) start n y) : ReflTransGen (Step expand) start y := by
  induction h with
  | here => exact .refl
  | onward _ next ih => exact ih.tail next

theorem exists_route (h : ReflTransGen (Step expand) start y) : ∃ n, Route (Step expand) start n y := by
  induction h with
  | refl => exact ⟨0, .here⟩
  | tail _ next ih =>
    obtain ⟨n, route⟩ := ih
    exact ⟨n + 1, route.onward next⟩

theorem route_depth (h : ReflTransGen (Step expand) start y) :
    Route (Step expand) start (depth expand start y) y := Nat.sInf_mem (exists_route h)

theorem depth_le {n : Nat} (h : Route (Step expand) start n y) : depth expand start y ≤ n := Nat.sInf_le h

theorem depth_le_succ (hx : ReflTransGen (Step expand) start x) (next : Step expand x y) :
    depth expand start y ≤ depth expand start x + 1 := depth_le ((route_depth hx).onward next)

theorem exists_step_of_ne (hy : ReflTransGen (Step expand) start y) (hne : y ≠ start) :
    ∃ x, ReflTransGen (Step expand) start x ∧ Step expand x y ∧
      depth expand start x < depth expand start y := by
  have hroute := route_depth hy
  generalize hn : depth expand start y = n at hroute
  cases hroute with
  | here => exact absurd rfl hne
  | onward route next => exact ⟨_, route.reach, next, Nat.lt_succ_of_le (depth_le route)⟩

end Depth

/-- Where a walk stands: what has been expanded has all its neighbours found, and the queue holds things
in the order of their depths, of which it has two at most. -/
structure Frontier (expand : α → Except ε (List α)) (start : α) (hidden queue : List α) : Prop where
  begun : start ∉ hidden
  reached : ∀ x ∈ queue, ReflTransGen (Step expand) start x
  closed : ∀ x, ReflTransGen (Step expand) start x → x ∉ hidden → x ∉ queue →
    ∀ y, Step expand x y → y ∉ hidden
  ordered : queue.Pairwise fun x y => depth expand start x ≤ depth expand start y
  narrow : ∀ x ∈ queue, ∀ y ∈ queue, depth expand start y ≤ depth expand start x + 1

namespace Frontier

variable {hidden queue : List α}

theorem exists_shallower (h : Frontier expand start hidden queue) {y : α} (hy : y ∈ hidden)
    (hreach : ReflTransGen (Step expand) start y) :
    ∃ x ∈ queue, depth expand start x < depth expand start y := by
  -- back along a shortest route, to the last place on it that was found
  generalize hn : depth expand start y = n
  induction n using Nat.strongRecOn generalizing y with
  | ind n ih =>
    subst hn
    have hne : y ≠ start := fun heq => h.begun (heq ▸ hy)
    obtain ⟨x, hx, next, hlt⟩ := exists_step_of_ne hreach hne
    by_cases hhidden : x ∈ hidden
    · obtain ⟨q, hq, hqx⟩ := ih _ hlt hhidden hx rfl
      exact ⟨q, hq, hqx.trans hlt⟩
    · by_cases hqueue : x ∈ queue
      · exact ⟨x, hqueue, hlt⟩
      · exact absurd hy (h.closed x hx hhidden hqueue y next)

variable {x : α} {rest candidates : List α}

theorem head_le (h : Frontier expand start hidden (x :: rest)) {q : α} (hq : q ∈ x :: rest) :
    depth expand start x ≤ depth expand start q := by
  rcases List.mem_cons.mp hq with rfl | hq
  · exact le_rfl
  · exact List.rel_of_pairwise_cons h.ordered hq

theorem head_lt (h : Frontier expand start hidden (x :: rest)) {y : α} (hy : y ∈ hidden)
    (hreach : ReflTransGen (Step expand) start y) : depth expand start x < depth expand start y := by
  obtain ⟨q, hq, hlt⟩ := h.exists_shallower hy hreach
  exact (h.head_le hq).trans_lt hlt

variable [DecidableEq α]

theorem initial {domain : List α} (hdomain : ∀ x y, Step expand x y → y ∈ domain) :
    Frontier expand start (domain.filter (· ≠ start)) [start] where
  begun := by simp
  reached x hx := List.mem_singleton.mp hx ▸ .refl
  closed x hx hhidden hqueue := by
    have hne : x ≠ start := fun heq => hqueue (heq ▸ List.mem_singleton_self start)
    obtain ⟨w, _, next, _⟩ := exists_step_of_ne hx hne
    exact absurd (List.mem_filter.mpr ⟨hdomain w x next, decide_eq_true hne⟩) hhidden
  ordered := List.pairwise_singleton _ _
  narrow x hx y hy := by
    rw [List.mem_singleton.mp hx, List.mem_singleton.mp hy]
    exact Nat.le_succ _

theorem depth_found (h : Frontier expand start hidden (x :: rest)) (hx : expand x = .ok candidates) {y : α}
    (hy : y ∈ (discover candidates hidden).1) :
    ReflTransGen (Step expand) start y ∧ depth expand start y = depth expand start x + 1 := by
  obtain ⟨hoffered, hhidden⟩ := (mem_discover_found candidates hidden y).mp hy
  have next : Step expand x y := ⟨candidates, hx, hoffered⟩
  have hreached := h.reached x List.mem_cons_self
  have hreach := hreached.tail next
  exact ⟨hreach, le_antisymm (depth_le_succ hreached next) (h.head_lt hhidden hreach)⟩

theorem pairwise_found (h : Frontier expand start hidden (x :: rest)) (hx : expand x = .ok candidates) :
    (discover candidates hidden).1.Pairwise fun y z => depth expand start y ≤ depth expand start z := by
  refine List.pairwise_of_forall_mem_list fun y hy z hz => ?_
  rw [(h.depth_found hx hy).2, (h.depth_found hx hz).2]

theorem depth_queued (h : Frontier expand start hidden (x :: rest)) (hx : expand x = .ok candidates) {q : α}
    (hq : q ∈ rest ++ (discover candidates hidden).1) :
    depth expand start x ≤ depth expand start q ∧
      depth expand start q ≤ depth expand start x + 1 := by
  rcases List.mem_append.mp hq with hq | hq
  · have hq := List.mem_cons_of_mem x hq
    exact ⟨h.head_le hq, h.narrow x List.mem_cons_self q hq⟩
  · have hdepth := (h.depth_found hx hq).2
    omega

theorem advance (h : Frontier expand start hidden (x :: rest)) (hx : expand x = .ok candidates) :
    Frontier expand start (discover candidates hidden).2 (rest ++ (discover candidates hidden).1) := by
  have hleft := mem_discover_left candidates hidden
  refine ⟨fun hs => h.begun ((hleft start).mp hs).1, fun q hq => ?_, ?_, ?_, fun q hq r hr => ?_⟩
  · rcases List.mem_append.mp hq with hq | hq
    · exact h.reached q (List.mem_cons_of_mem x hq)
    · exact (h.depth_found hx hq).1
  · intro z hz hhidden hqueue y next hy
    rw [List.mem_append, not_or, mem_discover_found] at hqueue
    rw [hleft] at hhidden hy
    have hvisible : z ∉ hidden := fun hmem =>
      hhidden ⟨hmem, fun hoffered => hqueue.2 ⟨hoffered, hmem⟩⟩
    by_cases hzx : z = x
    · obtain ⟨offered, hoffered, hmem⟩ := next
      obtain rfl : candidates = offered := Except.ok.inj (hx.symm.trans (hzx ▸ hoffered))
      exact hy.2 hmem
    · have hout : z ∉ x :: rest := List.not_mem_cons_of_ne_of_not_mem hzx hqueue.1
      exact h.closed z hz hvisible hout y next hy.1
  · refine List.pairwise_append.mpr ⟨h.ordered.of_cons, h.pairwise_found hx, fun q hq y hy => ?_⟩
    rw [(h.depth_found hx hy).2]
    exact (h.depth_queued hx (List.mem_append_left _ hq)).2
  · have hlow := (h.depth_queued hx hq).1
    have hhigh := (h.depth_queued hx hr).2
    omega

end Frontier

variable [DecidableEq α] {domain : List α}

theorem walkFrom_ordered {hidden queue out : List α} (hfrontier : Frontier expand start hidden queue)
    (h : walkFrom expand hidden queue = .ok out) :
    out.Pairwise fun x y => depth expand start x ≤ depth expand start y := by
  fun_induction walkFrom expand hidden queue generalizing out with
  | case1 => cases h; exact .nil
  | case2 => cases h
  | case3 => cases h
  | case4 hidden x rest candidates hx later hlater ih =>
    cases h
    have hnext := hfrontier.advance hx
    refine List.pairwise_append.mpr ⟨hfrontier.pairwise_found hx, ih hnext hlater, fun y hy z hz => ?_⟩
    -- what is listed later was hidden, and so is deeper than what was expanded
    obtain ⟨hleft, q, hq, hqz⟩ := walkFrom_sound hlater z hz
    have hhidden := ((mem_discover_left candidates hidden z).mp hleft).1
    rw [(hfrontier.depth_found hx hy).2]
    exact hfrontier.head_lt hhidden ((hnext.reached q hq).trans hqz.to_reflTransGen)

theorem walk_ordered (hdomain : ∀ x y, Step expand x y → y ∈ domain) {out : List α}
    (h : walk expand domain start = .ok out) :
    out.Pairwise fun x y => depth expand start x ≤ depth expand start y :=
  walkFrom_ordered (.initial hdomain) h

/-- A walk lists what a tolerant one does, unless something in its queue or in that list has a fault: then
it ends with the first. -/
theorem walkFrom_eq (expand : α → Except ε (List α)) (hidden queue : List α) :
    ∃ out, walkFrom (tolerant expand) hidden queue = .ok out ∧
      walkFrom expand hidden queue = ((queue ++ out).findSome? (fault? expand)).elim (.ok out) .error := by
  fun_induction walkFrom (tolerant expand) hidden queue with
  | case1 => exact ⟨[], rfl, by simp [walkFrom]⟩
  | case2 hidden x rest e hx => cases hx
  | case3 hidden x rest candidates hx e he ih =>
    obtain ⟨out, hout, _⟩ := ih
    rw [he] at hout
    cases hout
  | case4 hidden x rest candidates hx later hlater ih =>
    obtain ⟨out, hout, heq⟩ := ih
    obtain rfl : later = out := Except.ok.inj (hlater.symm.trans hout)
    refine ⟨_, rfl, ?_⟩
    rw [walkFrom]
    cases hexpand : expand x with
    | error e => simp [fault?, hexpand]
    | ok offered =>
      obtain rfl : candidates = offered := Except.ok.inj (hx.symm.trans (tolerant_of_ok hexpand))
      have hpass : fault? expand x = none := by simp [fault?, hexpand]
      simp only [heq, List.cons_append, List.findSome?_cons, hpass, List.append_assoc]
      cases List.findSome? (fault? expand) (rest ++ ((discover candidates hidden).1 ++ later)) <;> rfl

theorem walk_eq (expand : α → Except ε (List α)) (domain : List α) (start : α) :
    ∃ out, walk (tolerant expand) domain start = .ok out ∧
      walk expand domain start = ((start :: out).findSome? (fault? expand)).elim (.ok out) .error :=
  walkFrom_eq expand (domain.filter (· ≠ start)) [start]

end Walk

namespace Adjacency

open Relation Walk

variable {t : Adjacency} {id next : Int}

theorem neighbours_cases (t : Adjacency) (id : Int) :
    (∃ ids, Table.get? t id = some ids ∧ t.neighbours id = .ok ids) ∨
      (Table.get? t id = none ∧ t.neighbours id = .error id) := by
  cases h : Table.get? t id <;> simp [neighbours, h]

theorem mem_domain_of_step (h : Step t.neighbours id next) : next ∈ t.domain := by
  obtain ⟨offered, hoffered, hnext⟩ := h
  rcases t.neighbours_cases id with ⟨ids, hget, hids⟩ | ⟨_, hfail⟩
  · obtain rfl : offered = ids := Except.ok.inj (hoffered.symm.trans hids)
    exact List.mem_flatMap.mpr ⟨_, Table.mem_of_get? hget, List.mem_cons_of_mem _ hnext⟩
  · rw [hfail] at hoffered
    cases hoffered

theorem fault?_neighbours (t : Adjacency) :
    fault? t.neighbours = Option.guard fun id => (Table.get? t id).isNone := by
  funext id
  rcases t.neighbours_cases id with ⟨ids, hget, h⟩ | ⟨hget, h⟩ <;> simp [fault?, Option.guard, hget, h]

/-- A walk over a table lists each number that it leads to once, but for its start, those that are fewer
steps away first. If one of all these numbers has no entry, the walk fails, and it names the first. -/
theorem walk_breadthFirst (t : Adjacency) (start : Int) :
    ∃ order, Walk.walk (tolerant t.neighbours) t.domain start = .ok order ∧
      order.Nodup ∧
      (∀ id, id ∈ order ↔ id ≠ start ∧ ReflTransGen (Step t.neighbours) start id) ∧
      (order.Pairwise fun a b => depth t.neighbours start a ≤ depth t.neighbours start b) ∧
      ((∀ id, ReflTransGen (Step t.neighbours) start id → (Table.get? t id).isSome) →
        t.walk start = .ok order) ∧
      ((∃ id, ReflTransGen (Step t.neighbours) start id ∧ Table.get? t id = none) →
        ∃ first, (start :: order).find? (fun id => (Table.get? t id).isNone) = some first ∧
          t.walk start = .error first) := by
  obtain ⟨order, horder, hwalk⟩ := walk_eq t.neighbours t.domain start
  have hdomain : ∀ x y, Step (tolerant t.neighbours) x y → y ∈ t.domain := by
    rw [step_tolerant]
    exact fun _ _ => mem_domain_of_step
  have hmem : ∀ id, id ∈ order ↔ id ≠ start ∧ ReflTransGen (Step t.neighbours) start id := by
    intro id
    rw [mem_walk_iff hdomain horder, step_tolerant, reflTransGen_iff_eq_or_transGen]
    tauto
  have hsorted := walk_ordered hdomain horder
  rw [depth_tolerant] at hsorted
  rw [fault?_neighbours, ← List.find?_eq_findSome?_guard] at hwalk
  refine ⟨order, horder, walk_nodup horder, hmem, hsorted, fun hknown => ?_, fun hmissing => ?_⟩
  · have hnone : (start :: order).find? (fun id => (Table.get? t id).isNone) = none := by
      refine List.find?_eq_none.mpr fun id hid => ?_
      rcases List.mem_cons.mp hid with rfl | hid
      · simp [Option.isSome_iff_ne_none.mp (hknown id .refl)]
      · simp [Option.isSome_iff_ne_none.mp (hknown id ((hmem id).mp hid).2)]
    rw [hnone] at hwalk
    exact hwalk
  · obtain ⟨id, hreach, hget⟩ := hmissing
    have hid : id ∈ start :: order := by
      by_cases hstart : id = start
      · exact hstart ▸ List.mem_cons_self
      · exact List.mem_cons_of_mem start ((hmem id).mpr ⟨hstart, hreach⟩)
    cases hfind : (start :: order).find? (fun id => (Table.get? t id).isNone) with
    | none => simpa [hget] using List.find?_eq_none.mp hfind id hid
    | some first =>
      rw [hfind] at hwalk
      exact ⟨first, rfl, hwalk⟩

example : Adjacency.walk [(1, [3, 2]), (2, [4]), (3, [5, 4]), (4, [1]), (5, [2, 2])] 1 = .ok [3, 2, 5, 4] := by
  cbv

example : Adjacency.walk [(1, [3, 2, 4]), (3, [5])] 1 = .error 2 := by cbv

end Adjacency

end RoadNames
