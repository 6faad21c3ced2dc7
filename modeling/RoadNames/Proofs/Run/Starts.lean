import RoadNames.Proofs.Check.Flag
import RoadNames.Proofs.Random.Sample
import RoadNames.Run.Runner
set_option autoImplicit false

namespace RoadNames.Runner

open Network

theorem candidates_network (r : Runner) :
    ∃ index, r.candidates.2 = { r.network with starts := index } := by
  unfold candidates
  split
  · exact ⟨_, rfl⟩
  · exact ⟨r.network.starts, rfl⟩

theorem segment?_candidates (r : Runner) : r.candidates.2.segment? = r.network.segment? := by
  obtain ⟨index, hindex⟩ := r.candidates_network
  rw [hindex]
  rfl

theorem candidates_sublist {r : Runner} (hg : r.network.Sound) :
    r.candidates.1.Sublist r.network.segments := by
  unfold candidates
  split
  · rw [near_eq_filter hg]
    exact List.filter_sublist
  · exact .refl _

theorem mem_candidates {r : Runner} (hg : r.network.Sound) (t : Segment) :
    t ∈ r.candidates.1 ↔ t ∈ r.network.segments ∧
      ∀ center radius, r.region = some (center, radius) →
        t.start.any (fun p => center.distanceTo p ≤ radius) = true := by
  unfold candidates
  cases hregion : r.region with
  | none => simp
  | some region =>
    obtain ⟨center, radius⟩ := region
    simp [near_eq_filter hg]

theorem pairwise_startIds {segments : List Segment} (h : (segments.map (·.id)).Nodup) :
    (startIds segments).Pairwise (· < ·) := by
  have hnodup : ((segments.filter Check.validStart).map (·.id)).Nodup :=
    h.sublist (List.filter_sublist.map _)
  simpa [startIds] using pairwise_lt_mergeSort id (fun _ _ => decide_eq_true_iff) (by simpa using hnodup)

theorem mem_startIds {segments : List Segment} {id : Int} :
    id ∈ startIds segments ↔ ∃ s ∈ segments, Check.validStart s = true ∧ s.id = id := by
  rw [startIds, (List.mergeSort_perm _ _).mem_iff]
  simp [and_assoc]

theorem startSegments_eq {r : Runner} (hfresh : r.starts = none) :
    r.startSegments.map (·.1) =
      (Random.sample (startIds r.candidates.1) r.fraction r.generator).map
        fun drawing => drawing.1.filterMap r.network.segment? := by
  unfold startSegments
  rw [hfresh]
  simp only [← r.segment?_candidates]
  cases Random.sample (startIds r.candidates.1) r.fraction r.generator <;> rfl

/-- Starts that are drawn anew are looked up in the network by a part of the numbers of the candidates. -/
theorem startSegments_cases {r drawn : Runner} {starts : List Segment} (hfresh : r.starts = none)
    (h : r.startSegments = .ok (starts, drawn)) :
    ∃ (ids : List Int) (generator : Random.Generator), ids.Sublist (startIds r.candidates.1) ∧
      starts = ids.filterMap r.network.segment? ∧
      drawn = { r with network := r.candidates.2, generator := generator, starts := some starts } := by
  unfold startSegments at h
  rw [hfresh] at h
  cases hsample : Random.sample (startIds r.candidates.1) r.fraction r.generator with
  | error e => simp [hsample] at h
  | ok drawing =>
    obtain ⟨ids, generator⟩ := drawing
    simp only [hsample, r.segment?_candidates, Except.ok.injEq, Prod.mk.injEq] at h
    obtain ⟨rfl, rfl⟩ := h
    exact ⟨ids, generator, (Random.sampled_of_sample hsample).sublist, rfl, rfl⟩

variable {r drawn : Runner} {starts : List Segment}

theorem pairwise_starts (hg : r.network.Sound) (hfresh : r.starts = none)
    (h : r.startSegments = .ok (starts, drawn)) : (starts.map (·.id)).Pairwise (· < ·) := by
  obtain ⟨ids, _, hids, rfl, _⟩ := startSegments_cases hfresh h
  have hsorted := pairwise_startIds (hg.numbered.sublist ((candidates_sublist hg).map _))
  rw [map_id_filterMap_segment?]
  exact hsorted.sublist (List.filter_sublist.trans hids)

theorem mem_candidates_of_mem_starts (hg : r.network.Sound) (hfresh : r.starts = none)
    (h : r.startSegments = .ok (starts, drawn)) {s : Segment} (hs : s ∈ starts) :
    s ∈ r.candidates.1 ∧ Check.validStart s = true := by
  obtain ⟨ids, _, hids, rfl, _⟩ := startSegments_cases hfresh h
  obtain ⟨id, hid, hfound⟩ := List.mem_filterMap.mp hs
  obtain ⟨t, ht, hvalid, htid⟩ := mem_startIds.mp (hids.subset hid)
  obtain ⟨hmem, hsid⟩ := (segment?_eq_some_iff hg.numbered).mp hfound
  have hst := eq_of_id_eq hg.numbered hmem ((candidates_sublist hg).subset ht) (hsid.trans htid.symm)
  exact ⟨hst ▸ ht, hst ▸ hvalid⟩

theorem mem_starts (hg : r.network.Sound) (hfresh : r.starts = none)
    (h : r.startSegments = .ok (starts, drawn)) {s : Segment} (hs : s ∈ starts) :
    s ∈ r.network.segments ∧ Check.validStart s = true := by
  obtain ⟨hcandidate, hvalid⟩ := mem_candidates_of_mem_starts hg hfresh h hs
  exact ⟨(candidates_sublist hg).subset hcandidate, hvalid⟩

theorem startSegments_drawn (hfresh : r.starts = none) (h : r.startSegments = .ok (starts, drawn)) :
    drawn.startSegments = .ok (starts, drawn) := by
  obtain ⟨_, _, _, _, rfl⟩ := startSegments_cases hfresh h
  rfl

theorem startSegments_of_sample {ids : List Int} {generator : Random.Generator} (hfresh : r.starts = none)
    (h : Random.sample (startIds r.candidates.1) r.fraction r.generator = .ok (ids, generator)) :
    ∃ drawn, r.startSegments = .ok (ids.filterMap r.network.segment?, drawn) := by
  unfold startSegments
  rw [hfresh]
  simp only [h, r.segment?_candidates]
  exact ⟨_, rfl⟩

theorem startSegments_of_full (hfresh : r.starts = none) (hfull : r.fraction ≥ 1.0) :
    ∃ drawn, r.startSegments = .ok ((startIds r.candidates.1).filterMap r.network.segment?, drawn) := by
  have hsample : Random.sample (startIds r.candidates.1) r.fraction r.generator =
      .ok (startIds r.candidates.1, r.generator) := by simp [Random.sample, Random.sampleBy, hfull]
  exact startSegments_of_sample hfresh hsample

theorem startIds_sublist (hg : r.network.Sound) :
    (startIds r.candidates.1).Sublist (startIds r.network.segments) := by
  have hsub := candidates_sublist hg
  have hall := pairwise_startIds hg.numbered
  have hsome := pairwise_startIds (hg.numbered.sublist (hsub.map _))
  have heq : startIds r.candidates.1 =
      (startIds r.network.segments).filter fun id => decide (id ∈ startIds r.candidates.1) := by
    refine eq_of_pairwise_lt id (by simpa using hsome) (by simpa using hall.filter _) fun id => ?_
    rw [List.mem_filter, decide_eq_true_iff, and_iff_right_of_imp]
    intro hid
    obtain ⟨s, hs, hvalid⟩ := mem_startIds.mp hid
    exact mem_startIds.mpr ⟨s, hsub.subset hs, hvalid⟩
  rw [heq]
  exact List.filter_sublist

theorem starts_sublist (hg : r.network.Sound) (hfresh : r.starts = none)
    (h : r.startSegments = .ok (starts, drawn)) :
    starts.Sublist ((startIds r.network.segments).filterMap r.network.segment?) := by
  obtain ⟨ids, _, hids, rfl, _⟩ := startSegments_cases hfresh h
  exact (hids.trans (startIds_sublist hg)).filterMap _

theorem length_startIds_le (hg : r.network.Sound) :
    (startIds r.candidates.1).length ≤ r.network.segments.length := by
  rw [startIds, (List.mergeSort_perm _ _).length_eq, List.length_map]
  exact (List.filter_sublist.trans (candidates_sublist hg)).length_le

/-- Starts can be drawn at every positive fraction, and there are some if there are candidates for them. The
bound is far above the number of segments that any memory holds. -/
theorem startSegments_of_pos (hg : r.network.Sound) (hfresh : r.starts = none) (hpos : 0 < r.fraction)
    (hcount : r.network.segments.length < 2 ^ 1023) :
    ∃ starts drawn, r.startSegments = .ok (starts, drawn) ∧
      ((∃ s ∈ r.candidates.1, Check.validStart s = true) → starts ≠ []) := by
  have hlength := Decimal.natCast_lt_overflow (Nat.lt_of_le_of_lt (length_startIds_le hg) hcount)
  obtain ⟨ids, generator, hsample⟩ :=
    (Random.sampleBy_ok_iff Random.Choice.distinct (startIds r.candidates.1) hpos r.generator).mpr (.inr hlength)
  obtain ⟨drawn, hstarts⟩ := startSegments_of_sample hfresh hsample
  refine ⟨_, drawn, hstarts, fun hvalid hnil => ?_⟩
  obtain ⟨s, hs, hvalid⟩ := hvalid
  have hsampled := Random.sampled_of_sample hsample
  have hne := hsampled.ne_nil (List.ne_nil_of_mem (mem_startIds.mpr ⟨s, hs, hvalid, rfl⟩))
  obtain ⟨id, hid⟩ := List.exists_mem_of_ne_nil _ hne
  obtain ⟨t, ht, _, rfl⟩ := mem_startIds.mp (hsampled.sublist.subset hid)
  have hfound := segment?_of_mem hg.numbered ((candidates_sublist hg).subset ht)
  have hmem : t ∈ ids.filterMap r.network.segment? := List.mem_filterMap.mpr ⟨t.id, hid, hfound⟩
  rw [hnil] at hmem
  cases hmem

end RoadNames.Runner
