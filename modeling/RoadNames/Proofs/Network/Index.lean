import Mathlib.Data.List.Nodup
import RoadNames.Network.Basic
import RoadNames.Proofs.Geography
import RoadNames.Proofs.Names.Comparison
set_option autoImplicit false

namespace RoadNames

namespace Network

/-- What is left when a segment has arrived. One that is refused changes nothing. -/
def arrive (g : Network) (s : Segment) : Network :=
  match g.add s with
  | .ok g => g
  | .error _ => g

def ofArrivals (digits : Int) (arrivals : List Segment) : Network :=
  arrivals.foldl arrive (empty digits)

theorem contains_iff (g : Network) (id : Int) : g.contains id = true ↔ id ∈ g.ids := by
  simp [contains]

theorem arrive_of_mem {g : Network} {s : Segment} (h : s.id ∈ g.ids) : g.arrive s = g := by
  simp [arrive, add, (contains_iff g s.id).mpr h]

theorem segments_arrive_of_not_mem {g : Network} {s : Segment} (h : s.id ∉ g.ids) :
    (g.arrive s).segments = g.segments ++ [s] := by
  simp [arrive, add, contains_iff, h]

theorem ids_arrive_of_not_mem {g : Network} {s : Segment} (h : s.id ∉ g.ids) :
    (g.arrive s).ids = g.ids ++ [s.id] := by
  simp [ids, segments_arrive_of_not_mem h]

theorem nodup_ids_arrive {g : Network} (h : g.ids.Nodup) (s : Segment) : (g.arrive s).ids.Nodup := by
  by_cases hs : s.id ∈ g.ids
  · rwa [arrive_of_mem hs]
  · rw [ids_arrive_of_not_mem hs]
    exact List.nodup_append.mpr ⟨h, List.nodup_singleton _, fun a ha b hb => by
      rw [List.mem_singleton.mp hb]
      exact fun he => hs (he ▸ ha)⟩

theorem nodup_ids_foldl_arrive (arrivals : List Segment) {g : Network} (h : g.ids.Nodup) :
    (arrivals.foldl arrive g).ids.Nodup := by
  induction arrivals generalizing g with
  | nil => exact h
  | cons s arrivals ih => exact ih (nodup_ids_arrive h s)

theorem nodup_ids_ofArrivals (digits : Int) (arrivals : List Segment) :
    (ofArrivals digits arrivals).ids.Nodup :=
  nodup_ids_foldl_arrive arrivals List.nodup_nil

theorem eq_of_id_eq {g : Network} (h : g.ids.Nodup) {s t : Segment} (hs : s ∈ g.segments)
    (ht : t ∈ g.segments) (hid : s.id = t.id) : s = t :=
  List.inj_on_of_nodup_map h hs ht hid

theorem segment?_of_mem {g : Network} (h : g.ids.Nodup) {s : Segment} (hs : s ∈ g.segments) :
    g.segment? s.id = some s := by
  cases ht : g.segment? s.id with
  | none =>
    have hne := List.find?_eq_none.mp ht s hs
    simp at hne
  | some t => rw [eq_of_id_eq h (segment?_mem ht) hs (segment?_id ht)]

theorem segment?_eq_some_iff {g : Network} (h : g.ids.Nodup) {id : Int} {s : Segment} :
    g.segment? id = some s ↔ s ∈ g.segments ∧ s.id = id := by
  constructor
  · exact fun hs => ⟨segment?_mem hs, segment?_id hs⟩
  · intro hs
    obtain ⟨hs, rfl⟩ := hs
    exact segment?_of_mem h hs

end Network

namespace Segment

def HasEnd (s : Segment) (p : Location) : Prop := s.start = some p ∨ s.finish = some p

def EndsAt (s : Segment) (digits : Int) (node : Node) : Prop := ∃ p, s.HasEnd p ∧ p.node digits = node

/-- An end of one segment and an end of the other are at one node. -/
def Meets (digits : Int) (s t : Segment) : Prop :=
  ∃ p q, s.HasEnd p ∧ t.HasEnd q ∧ p.node digits = q.node digits

theorem Meets.symm {digits : Int} {s t : Segment} (h : s.Meets digits t) : t.Meets digits s := by
  obtain ⟨p, q, hp, hq, hpq⟩ := h
  exact ⟨q, p, hq, hp, hpq.symm⟩

theorem mem_places_iff (s : Segment) (p : Location) :
    p ∈ s.start.toList ++ s.finish.toList ↔ s.HasEnd p := by simp [HasEnd]

theorem hasEnd_of_mem_ends {s : Segment} {p : Location} (h : p ∈ s.ends) : s.HasEnd p := by
  unfold ends at h
  unfold HasEnd
  cases hs : s.start <;> cases hf : s.finish <;> grind

theorem HasEnd.exists_mem_ends {s : Segment} {p : Location} (h : s.HasEnd p) (digits : Int) :
    ∃ q ∈ s.ends, q.node digits = p.node digits := by
  unfold ends
  cases hs : s.start with
  | none =>
    have hf : s.finish = some p := by simpa [HasEnd, hs] using h
    exact ⟨p, by simp [hf], rfl⟩
  | some a =>
    cases hf : s.finish with
    | none =>
      have ha : a = p := by simpa [HasEnd, hs, hf] using h
      exact ⟨p, by simp [ha], rfl⟩
    | some b =>
      have hab : a = p ∨ b = p := by simpa [HasEnd, hs, hf] using h
      by_cases hsame : a.same b = true
      · have hnode := Location.node_eq_of_same hsame digits
        refine ⟨a, by simp [hsame], ?_⟩
        rcases hab with rfl | rfl
        · rfl
        · exact hnode
      · exact ⟨p, by rcases hab with rfl | rfl <;> simp [hsame], rfl⟩

theorem exists_mem_ends_iff (s : Segment) (digits : Int) (node : Node) :
    (∃ p ∈ s.ends, p.node digits = node) ↔ s.EndsAt digits node := by
  constructor
  · rintro ⟨p, hp, hnode⟩
    exact ⟨p, hasEnd_of_mem_ends hp, hnode⟩
  · rintro ⟨p, hp, rfl⟩
    exact hp.exists_mem_ends digits

end Segment

namespace Network

theorem atNode_set (nodes : Table Node (List Int)) (node n : Node) (ids : List Int) :
    atNode (nodes.set node ids) n = if node = n then ids else atNode nodes n := by
  unfold atNode
  rw [Table.get?_set]
  split <;> rfl

theorem mem_atNode_indexEnds (digits : Int) (nodes : Table Node (List Int)) (s : Segment) (node : Node)
    (id : Int) :
    id ∈ atNode (indexEnds digits nodes s) node ↔
      id ∈ atNode nodes node ∨ (s.id = id ∧ s.EndsAt digits node) := by
  rw [← Segment.exists_mem_ends_iff]
  unfold indexEnds
  induction s.ends generalizing nodes with
  | nil => simp
  | cons p places ih =>
    rw [List.foldl_cons, ih, atNode_set]
    by_cases hp : p.node digits = node
    · subst hp
      have hput : id ∈ atNode nodes (p.node digits) ++ [s.id] ↔
          id ∈ atNode nodes (p.node digits) ∨ s.id = id := by simp [eq_comm]
      simp only [↓reduceIte, hput, List.mem_cons, exists_eq_or_imp, true_or, and_true]
      tauto
    · simp [hp]

/-- What holds of every network, whatever was added to it and asked of it. -/
structure Sound (g : Network) : Prop where
  numbered : g.ids.Nodup
  indexed : ∀ node id, id ∈ atNode g.nodes node ↔ ∃ s ∈ g.segments, s.id = id ∧ s.EndsAt g.digits node
  current : ∀ index, g.starts = some index → index = g.startIndex

theorem sound_empty (digits : Int) : (empty digits).Sound where
  numbered := List.nodup_nil
  indexed node id := by simp [empty, atNode, Table.get?]
  current index h := by cases h

theorem add_cases (g : Network) (s : Segment) :
    (s.id ∈ g.ids ∧ g.add s = .error (.duplicateId s.id)) ∨
      (s.id ∉ g.ids ∧
        g.add s = .ok ⟨g.digits, g.segments ++ [s], indexEnds g.digits g.nodes s, none⟩) := by
  by_cases h : s.id ∈ g.ids <;> simp [add, contains_iff, h]

theorem Sound.add {g h : Network} {s : Segment} (hg : g.Sound) (hadd : g.add s = .ok h) : h.Sound := by
  rcases add_cases g s with ⟨_, he⟩ | ⟨hnew, he⟩
  · rw [he] at hadd; cases hadd
  · rw [he] at hadd
    cases hadd
    refine ⟨?_, fun node id => ?_, fun index hindex => by cases hindex⟩
    · have harrive : g.arrive s = ⟨g.digits, g.segments ++ [s], indexEnds g.digits g.nodes s, none⟩ := by
        simp [arrive, he]
      exact harrive ▸ nodup_ids_arrive hg.numbered s
    · rw [mem_atNode_indexEnds, hg.indexed]
      simp only [List.mem_append, List.mem_singleton, or_and_right, exists_or, exists_eq_left]

theorem Sound.near {g : Network} (hg : g.Sound) (center : Location) (radius : Distance) :
    (g.near center radius).2.Sound where
  numbered := hg.numbered
  indexed := hg.indexed
  current index h := by
    cases h
    cases hs : g.starts with
    | none => rfl
    | some built => exact hg.current built hs

theorem Sound.arrive {g : Network} (hg : g.Sound) (s : Segment) : (g.arrive s).Sound := by
  unfold Network.arrive
  split
  case h_1 h hadd => exact hg.add hadd
  case h_2 => exact hg

/-- Networks as they come about: segments are added, and segments near places are asked for. -/
inductive Built : Network → Prop where
  | empty (digits : Int) : Built (.empty digits)
  | add {g h : Network} {s : Segment} (hg : Built g) (hadd : g.add s = .ok h) : Built h
  | near {g : Network} (hg : Built g) (center : Location) (radius : Distance) :
    Built (g.near center radius).2

theorem Built.sound {g : Network} (hg : g.Built) : g.Sound := by
  induction hg with
  | empty digits => exact sound_empty digits
  | add _ hadd ih => exact ih.add hadd
  | near _ center radius ih => exact ih.near center radius

theorem Built.arrive {g : Network} (hg : g.Built) (s : Segment) : (g.arrive s).Built := by
  unfold Network.arrive
  split
  case h_1 h hadd => exact hg.add hadd
  case h_2 => exact hg

theorem built_ofArrivals (digits : Int) (arrivals : List Segment) : (ofArrivals digits arrivals).Built := by
  have hrun : ∀ (rest : List Segment) {g : Network}, g.Built → (rest.foldl Network.arrive g).Built := by
    intro rest
    induction rest with
    | nil => exact fun hg => hg
    | cons s rest ih => exact fun hg => ih (hg.arrive s)
  exact hrun arrivals (.empty digits)

theorem mem_connected_iff {g : Network} (hg : g.Sound) (s t : Segment) :
    t ∈ g.connected s ↔ t ∈ g.segments ∧ t.id ≠ s.id ∧ s.Meets g.digits t := by
  unfold connected
  simp only [List.mem_filterMap, List.mem_eraseDups, List.mem_filter, List.mem_flatMap,
    Segment.mem_places_iff, segment?_eq_some_iff hg.numbered, hg.indexed, decide_eq_true_eq]
  constructor
  · rintro ⟨id, ⟨⟨p, hp, u, hu, rfl, q, hq, hnode⟩, hne⟩, ht, hid⟩
    obtain rfl : t = u := eq_of_id_eq hg.numbered ht hu hid
    exact ⟨ht, hne, p, q, hp, hq, hnode.symm⟩
  · rintro ⟨ht, hne, p, q, hp, hq, hnode⟩
    exact ⟨t.id, ⟨⟨p, hp, t, ht, rfl, q, hq, hnode.symm⟩, hne⟩, ht, rfl⟩

variable {g : Network}

theorem near_eq_filter (hg : g.Sound) (center : Location) (radius : Distance) :
    (g.near center radius).1 =
      g.segments.filter fun s => s.start.any fun p => center.distanceTo p ≤ radius := by
  have hindex : g.starts.getD g.startIndex = g.startIndex := by
    cases h : g.starts with
    | none => rfl
    | some index => exact hg.current index h
  have hlist : ∀ segments : List Segment, (∀ s ∈ segments, g.segment? s.id = some s) →
      ((segments.filterMap fun s => s.start.map fun p => (p, s.id)).filter
          fun e => decide (center.distanceTo e.1 ≤ radius)).filterMap (fun e => g.segment? e.2) =
        segments.filter fun s => s.start.any fun p => center.distanceTo p ≤ radius := by
    intro segments hknown
    induction segments with
    | nil => rfl
    | cons s segments ih =>
      have hrest := ih fun t ht => hknown t (by simp [ht])
      cases hs : s.start with
      | none => simpa [hs] using hrest
      | some p =>
        by_cases hp : center.distanceTo p ≤ radius
        · simpa [hs, hp, hknown s (by simp)] using hrest
        · simpa [hs, hp] using hrest
  show ((g.starts.getD g.startIndex).filter _).filterMap _ = _
  rw [hindex]
  exact hlist g.segments fun s hs => segment?_of_mem hg.numbered hs

end Network

end RoadNames
