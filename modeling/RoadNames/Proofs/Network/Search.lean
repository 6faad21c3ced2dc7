import RoadNames.Proofs.Network.Connected
set_option autoImplicit false

/-!
What searches find does not depend on the order in which they go through neighbours or in which segments arrived, nor
on segments of the other direction. Searches that go on to all neighbours find the clusters of a network.
-/

namespace RoadNames

namespace Network

open Relation Walk

variable {ε : Type} {g : Network} {expand : Segment → Except ε (List Segment)}

/-- Whatever is offered on expansion of a segment of the network offers that segment in turn. -/
def Mutual (g : Network) (expand : Segment → Except ε (List Segment)) : Prop :=
  ∀ s t, s ∈ g.segments → Step expand s t → Step expand t s

theorem chain_symm (hin : g.Inside expand) (hmutual : g.Mutual expand) {s t : Segment} (hs : s ∈ g.segments)
    (h : ReflTransGen (Step expand) s t) : ReflTransGen (Step expand) t s := by
  induction h with
  | refl => exact .refl
  | tail hchain hstep ih => exact .head (hmutual _ _ (mem_of_chain hin hs hchain) hstep) ih

theorem collectBy_ok_of_total (hids : g.ids.Nodup) (hin : g.Inside expand) {s : Segment} (hs : s ∈ g.segments)
    (htotal : ∀ u, ∃ ts, expand u = .ok ts) : ∃ found, g.collectBy expand s = .ok found := by
  cases h : g.collectBy expand s with
  | ok found => exact ⟨found, rfl⟩
  | error e =>
    obtain ⟨u, _, hu⟩ := collectBy_error hids hin hs h
    obtain ⟨ts, hts⟩ := htotal u
    rw [hts] at hu
    cases hu

theorem mem_collectBy_iff_chain (hids : g.ids.Nodup) (hin : g.Inside expand) {s : Segment}
    (hs : s ∈ g.segments) {found : List Segment} (h : g.collectBy expand s = .ok found) (t : Segment) :
    t ∈ found ↔ t ≠ s ∧ ReflTransGen (Step expand) s t := by
  rw [mem_collectBy_iff hids hin hs h, reflTransGen_iff_eq_or_transGen]
  constructor
  · intro ⟨hid, hchain⟩
    exact ⟨fun heq => hid (congrArg Segment.id heq), .inr hchain⟩
  · intro ⟨hne, hchain⟩
    have hlater := hchain.resolve_left hne
    exact ⟨fun hid => hne (eq_of_id_eq hids (mem_of_chain hin hs hlater.to_reflTransGen) hs hid), hlater⟩

theorem mem_cons_collectBy_iff (hids : g.ids.Nodup) (hin : g.Inside expand) {s : Segment}
    (hs : s ∈ g.segments) {found : List Segment} (h : g.collectBy expand s = .ok found) (t : Segment) :
    t ∈ s :: found ↔ ReflTransGen (Step expand) s t := by
  rw [List.mem_cons, mem_collectBy_iff_chain hids hin hs h]
  by_cases hts : t = s
  · simp [hts, ReflTransGen.refl]
  · simp [hts]

theorem collectBy_eq_or_disjoint (hids : g.ids.Nodup) (hin : g.Inside expand) (hmutual : g.Mutual expand)
    {s t : Segment} (hs : s ∈ g.segments) (ht : t ∈ g.segments) {around beyond : List Segment}
    (haround : g.collectBy expand s = .ok around) (hbeyond : g.collectBy expand t = .ok beyond) :
    (∀ u, u ∈ s :: around ↔ u ∈ t :: beyond) ∨ ∀ u ∈ s :: around, u ∉ t :: beyond := by
  simp only [mem_cons_collectBy_iff hids hin hs haround, mem_cons_collectBy_iff hids hin ht hbeyond]
  by_cases hst : ReflTransGen (Step expand) s t
  · have hts := chain_symm hin hmutual hs hst
    exact .inl fun u => ⟨hts.trans, hst.trans⟩
  · exact .inr fun u hsu htu => hst (hsu.trans (chain_symm hin hmutual ht htu))

theorem step_expandAll (s t : Segment) : Step g.expandAll s t ↔ t ∈ g.connected s := by
  simp [Step, expandAll]

theorem inside_expandAll (g : Network) : g.Inside g.expandAll :=
  fun s t hstep => connected_mem ((step_expandAll s t).mp hstep)

theorem mutual_expandAll (hg : g.Sound) : g.Mutual g.expandAll := by
  intro s t hs hstep
  rw [step_expandAll, mem_connected_iff hg] at hstep ⊢
  obtain ⟨_, hid, hmeet⟩ := hstep
  exact ⟨hs, hid.symm, hmeet.symm⟩

/-- Every search that goes on to all neighbours comes out well, with segments of the network. One segment is
found from another just if that is found from it, and what is found from each, with the segment itself, is
the same or altogether different. -/
theorem collectBy_expandAll_partition (hg : g.Built) {s t : Segment} (hs : s ∈ g.segments)
    (ht : t ∈ g.segments) :
    ∃ around beyond, g.collectBy g.expandAll s = .ok around ∧ g.collectBy g.expandAll t = .ok beyond ∧
      s :: around ⊆ g.segments ∧
      (t ∈ around ↔ s ∈ beyond) ∧
      ((∀ u, u ∈ s :: around ↔ u ∈ t :: beyond) ∨ ∀ u ∈ s :: around, u ∉ t :: beyond) := by
  have hids := hg.sound.numbered
  have hin := g.inside_expandAll
  have hmutual := mutual_expandAll hg.sound
  have htotal : ∀ u, ∃ ts, g.expandAll u = .ok ts := fun u => ⟨g.connected u, rfl⟩
  obtain ⟨around, haround⟩ := collectBy_ok_of_total hids hin hs htotal
  obtain ⟨beyond, hbeyond⟩ := collectBy_ok_of_total hids hin ht htotal
  refine ⟨around, beyond, haround, hbeyond, fun u hu => ?_, ?_,
    collectBy_eq_or_disjoint hids hin hmutual hs ht haround hbeyond⟩
  · exact mem_of_chain hin hs ((mem_cons_collectBy_iff hids hin hs haround u).mp hu)
  · rw [mem_collectBy_iff_chain hids hin hs haround, mem_collectBy_iff_chain hids hin ht hbeyond]
    exact and_congr ne_comm ⟨chain_symm hin hmutual hs, chain_symm hin hmutual ht⟩

theorem segments_junction : junction.segments = [roundabout, spur, lost] := by
  rw [junction, segments_ofArrivals]
  rfl

theorem not_meets_lost (digits : Int) (u : Segment) : ¬ u.Meets digits lost := by
  rintro ⟨_, q, _, hq, _⟩
  rcases hq with hq | hq <;> cases hq

theorem clusters_junction :
    junction.Built ∧ roundabout ∈ junction.segments ∧ spur ∈ junction.segments ∧ lost ∈ junction.segments ∧
      ∃ around beyond apart, junction.collectBy junction.expandAll roundabout = .ok around ∧
        junction.collectBy junction.expandAll spur = .ok beyond ∧
        junction.collectBy junction.expandAll lost = .ok apart ∧
        spur ∈ around ∧ roundabout ∈ beyond ∧
        (∀ u, u ∈ roundabout :: around ↔ u ∈ spur :: beyond) ∧
        ∀ u ∈ roundabout :: around, u ∉ lost :: apart := by
  have hbuilt : junction.Built := built_ofArrivals 7 _
  have hids := hbuilt.sound.numbered
  have hloop : roundabout ∈ junction.segments := by simp [segments_junction]
  have hspur : spur ∈ junction.segments := by simp [segments_junction]
  have hlost : lost ∈ junction.segments := by simp [segments_junction]
  obtain ⟨around, beyond, haround, hbeyond, _, hmutual, hpair⟩ := collectBy_expandAll_partition hbuilt hloop hspur
  obtain ⟨around', apart, haround', hapart, _, _, hlone⟩ := collectBy_expandAll_partition hbuilt hloop hlost
  obtain rfl : around = around' := Except.ok.inj (haround.symm.trans haround')
  have hreach := mem_cons_collectBy_iff hids junction.inside_expandAll hloop haround
  have hjoined : spur ∈ junction.connected roundabout :=
    (mem_connected_iff hbuilt.sound _ _).mpr ⟨hspur, by decide, roundabout_meets_spur⟩
  have hfound : spur ∈ roundabout :: around :=
    (hreach spur).mpr (.single ((step_expandAll _ _).mpr hjoined))
  have haround_spur : spur ∈ around :=
    (List.mem_cons.mp hfound).resolve_left fun h => absurd (congrArg Segment.id h) (by decide)
  have hmissed : lost ∉ roundabout :: around := by
    rw [hreach]
    intro hchain
    rcases reflTransGen_iff_eq_or_transGen.mp hchain with h | h
    · exact absurd (congrArg Segment.id h) (by decide)
    · obtain ⟨u, _, hstep⟩ := TransGen.tail'_iff.mp h
      have hmeet := ((mem_connected_iff hbuilt.sound u lost).mp ((step_expandAll u lost).mp hstep)).2.2
      exact not_meets_lost _ u hmeet
  refine ⟨hbuilt, hloop, hspur, hlost, around, beyond, apart, haround, hbeyond, hapart, haround_spur,
    hmutual.mp haround_spur, hpair.resolve_right fun h => h spur hfound List.mem_cons_self, ?_⟩
  exact hlone.resolve_left fun h => hmissed ((h lost).mpr List.mem_cons_self)

/-- Neighbours are a set. Every search may be offered those of each segment in an order of its own. -/
structure Enumeration where
  arrange : Segment → Segment → List Segment → List Segment
  perm : ∀ start incoming neighbours, (arrange start incoming neighbours).Perm neighbours

namespace Enumeration

def indexed : Enumeration := ⟨fun _ _ neighbours => neighbours, fun _ _ _ => .refl _⟩

def neighbours (e : Enumeration) (g : Network) (start incoming : Segment) : List Segment :=
  e.arrange start incoming (g.connected incoming)

def search (e : Enumeration) (g : Network) : Search := fun start limit =>
  g.collectBy (expandThrough (e.neighbours g start) start limit) start

theorem search_indexed (g : Network) : indexed.search g = g.collect := rfl

variable (e : Enumeration) (g : Network) (s : Segment) (limit : Distance)

theorem expand_cases (u : Segment) :
    (∃ fault, g.expandWithin s limit u = .error fault ∧
      expandThrough (e.neighbours g s) s limit u = .error fault) ∨
    (∃ ts us, g.expandWithin s limit u = .ok ts ∧
      expandThrough (e.neighbours g s) s limit u = .ok us ∧ us.Perm ts) := by
  unfold expandWithin expandThrough
  cases s.start with
  | none => exact .inl ⟨_, rfl, rfl⟩
  | some origin =>
    cases u.finish with
    | none => exact .inl ⟨_, rfl, rfl⟩
    | some place =>
      right
      by_cases hle : place.distanceTo origin ≤ limit
      · simp only [hle, ↓reduceIte]
        exact ⟨_, _, rfl, rfl, (e.perm s u (g.connected u)).filter _⟩
      · simp only [hle, ↓reduceIte]
        exact ⟨_, _, rfl, rfl, .refl _⟩

theorem step_expand : Step (expandThrough (e.neighbours g s) s limit) = g.Link s limit := by
  rw [← step_expandWithin]
  funext u t
  rcases e.expand_cases g s limit u with ⟨fault, hf, he⟩ | ⟨ts, us, hts, hus, hperm⟩
  · simp [Step, he, hf]
  · simp [Step, hts, hus, hperm.mem_iff]

theorem inside_expand : g.Inside (expandThrough (e.neighbours g s) s limit) := by
  intro u t h
  rw [step_expand] at h
  exact connected_mem h.joined

end Enumeration

end Network

/-- A search from `s` that fails just if it comes to something without an end, and else finds all of the
reach. -/
structure Search.Exact (search : Search) (g : Network) (s : Segment) (limit : Distance) : Prop where
  fails : g.Blocked s limit → ∃ fault, search s limit = .error fault
  finds : ¬ g.Blocked s limit → ∃ out, search s limit = .ok out ∧
    (∀ t, t ∈ out ↔ g.Reaches s limit t) ∧ (out.map (·.id)).Nodup

namespace Network

variable {g : Network} {s : Segment}

theorem Enumeration.search_exact (e : Enumeration) (hids : g.ids.Nodup) (hs : s ∈ g.segments)
    (limit : Distance) : (e.search g).Exact g s limit := by
  have hin := e.inside_expand g s limit
  have hstep := e.step_expand g s limit
  constructor
  · intro hblocked
    obtain ⟨fault, hfault⟩ := collect_fails_of_blocked hids hs hblocked
    obtain ⟨u, hu, he⟩ := collectBy_error hids (inside_expandWithin g s limit) hs hfault
    rw [step_expandWithin, ← hstep] at hu
    rcases e.expand_cases g s limit u with ⟨_, _, hf⟩ | ⟨ts, _, hts, _⟩
    · exact collectBy_fails hids hin hs hu hf
    · rw [he] at hts; cases hts
  · intro hfree
    cases h : e.search g s limit with
    | ok out =>
      refine ⟨out, rfl, fun t => ?_, nodup_ids_collectBy h⟩
      rw [mem_collectBy_iff hids hin hs h, hstep]
      rfl
    | error fault =>
      -- what cannot be expanded here cannot be expanded in the order of the index
      obtain ⟨u, hu, he⟩ := collectBy_error hids hin hs h
      rw [hstep, ← step_expandWithin] at hu
      rcases e.expand_cases g s limit u with ⟨_, hfault, _⟩ | ⟨_, us, _, hus, _⟩
      · obtain ⟨fault', hfail⟩ := collectBy_fails hids (inside_expandWithin g s limit) hs hu hfault
        exact absurd (blocked_of_collect_error hids hs hfail) hfree
      · rw [he] at hus; cases hus

open Relation

/-- Networks on one grid that have the same primary segments. -/
structure SamePrimary (g h : Network) : Prop where
  digits : g.digits = h.digits
  primary : ∀ t : Segment, t.isPrimary = true → (t ∈ g.segments ↔ t ∈ h.segments)

namespace SamePrimary

variable {g h : Network} (same : g.SamePrimary h) (hg : g.Sound) (hh : h.Sound)
include same hg hh

theorem link_eq (s : Segment) (limit : Distance) : g.Link s limit = h.Link s limit := by
  have hjoined : ∀ u t : Segment, t.isPrimary = true → (t ∈ g.connected u ↔ t ∈ h.connected u) := by
    intro u t ht
    rw [mem_connected_iff hg, mem_connected_iff hh, same.digits, same.primary t ht]
  funext u t
  apply propext
  constructor
  · intro hlink
    exact ⟨hlink.near, (hjoined u t hlink.primary).mp hlink.joined, hlink.primary⟩
  · intro hlink
    exact ⟨hlink.near, (hjoined u t hlink.primary).mpr hlink.joined, hlink.primary⟩

theorem reaches_iff (s : Segment) (limit : Distance) (t : Segment) :
    g.Reaches s limit t ↔ h.Reaches s limit t := by
  unfold Reaches
  rw [same.link_eq hg hh]

end SamePrimary

theorem accepted_of_nodup {arrivals : List Segment} (h : (arrivals.map (·.id)).Nodup) :
    accepted arrivals = arrivals := by
  induction arrivals with
  | nil => rfl
  | cons s later ih =>
    obtain ⟨hs, hlater⟩ := List.nodup_cons.mp h
    have hkept : later.filter (fun t => t.id ≠ s.id) = later := by
      refine List.filter_eq_self.mpr fun t ht => decide_eq_true fun hid => hs ?_
      exact List.mem_map.mpr ⟨t, ht, hid⟩
    rw [accepted_cons, hkept, ih hlater]

def primaryPart (g : Network) : Network := ofArrivals g.digits (g.segments.filter Segment.isPrimary)

theorem segments_primaryPart {g : Network} (hg : g.Sound) :
    g.primaryPart.segments = g.segments.filter Segment.isPrimary := by
  rw [primaryPart, segments_ofArrivals, accepted_of_nodup]
  exact hg.numbered.sublist (List.filter_sublist.map _)

theorem digits_ofArrivals (digits : Int) (arrivals : List Segment) :
    (ofArrivals digits arrivals).digits = digits := digits_foldl_arrive arrivals (empty digits)

theorem samePrimary_primaryPart {g : Network} (hg : g.Sound) : g.SamePrimary g.primaryPart where
  digits := (digits_ofArrivals _ _).symm
  primary t ht := by simp [segments_primaryPart hg, ht]

theorem samePrimary_of_perm (digits : Int) {arrivals others : List Segment}
    (hperm : arrivals.Perm others) (hids : (arrivals.map (·.id)).Nodup) :
    (ofArrivals digits arrivals).SamePrimary (ofArrivals digits others) where
  digits := by rw [digits_ofArrivals, digits_ofArrivals]
  primary t _ := by
    have hothers : (others.map (·.id)).Nodup := (hperm.map _).nodup_iff.mp hids
    rw [segments_ofArrivals, segments_ofArrivals, accepted_of_nodup hids, accepted_of_nodup hothers,
      hperm.mem_iff]

end Network

end RoadNames
