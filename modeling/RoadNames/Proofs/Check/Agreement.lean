import RoadNames.Proofs.Check.Flag
import RoadNames.Proofs.Network.Search
set_option autoImplicit false

namespace RoadNames

namespace Names

theorem inconsistentNames_comm (a b : Option String) : inconsistentNames a b = inconsistentNames b a := by
  cases a <;> cases b <;> simp [inconsistentNames, inconsistent_comm]

end Names

namespace Check

open Network

variable {c : Check} {g : Network} {s t : Segment}

/-- The flag of `s` lists `t`. -/
def Reports (c : Check) (g : Network) (s t : Segment) : Prop :=
  ∃ f, c.flag g s = .ok (some f) ∧ t ∈ f.flagged

theorem reports_iff_mem_misspelt {nearby : List Segment} (hvalid : validStart s = true)
    (hwalk : g.collect s c.limit = .ok nearby) (t : Segment) :
    c.Reports g s t ↔ t ∈ misspelt s nearby := by
  have hflag : c.flag g s = .ok (c.verdict s (misspelt s nearby)) := flagBy_of_ok hvalid hwalk
  unfold Reports
  rw [hflag, verdict]
  cases hhits : misspelt s nearby with
  | nil => simp
  | cons u rest => simp [flagOf]

theorem reports_neighbour_iff (hg : g.Sound) (hs : s ∈ g.segments) (hvalid : validStart s = true)
    (hnear : EndsWithin s c.limit s) (hwalk : ∃ nearby, g.collect s c.limit = .ok nearby)
    (hjoined : t ∈ g.connected s) (hprimary : t.isPrimary = true) :
    c.Reports g s t ↔ Names.inconsistentNames s.name t.name = true := by
  obtain ⟨nearby, hwalk⟩ := hwalk
  have hne : t.id ≠ s.id := ((mem_connected_iff hg s t).mp hjoined).2.1
  have hreach : g.Reaches s c.limit t := ⟨hne, .single ⟨hnear, hjoined, hprimary⟩⟩
  have hfound : t ∈ nearby := (mem_collect_iff hg.numbered hs hwalk t).mpr hreach
  rw [reports_iff_mem_misspelt hvalid hwalk, mem_misspelt, Names.inconsistentNames_comm s.name]
  exact and_iff_right hfound

/-- Two segments that can be searched from, that share a node and of which each ends near enough to where it
starts, list each other or do not, and they do just if their names are one name spelt in two ways. -/
theorem neighbours_report_each_other (c : Check) (hg : g.Built) (hs : s ∈ g.segments) (ht : t ∈ g.segments)
    (hne : s ≠ t) (hmeet : s.Meets g.digits t)
    (hsvalid : validStart s = true) (htvalid : validStart t = true)
    (hsnear : EndsWithin s c.limit s) (htnear : EndsWithin t c.limit t)
    (hswalk : ∃ nearby, g.collect s c.limit = .ok nearby)
    (htwalk : ∃ nearby, g.collect t c.limit = .ok nearby) :
    (c.Reports g s t ↔ c.Reports g t s) ∧
    (c.Reports g s t ↔ Names.inconsistentNames s.name t.name = true) ∧
    Names.inconsistentNames t.name s.name = Names.inconsistentNames s.name t.name := by
  have hids : t.id ≠ s.id := fun hid => hne (eq_of_id_eq hg.sound.numbered hs ht hid.symm)
  have hst : t ∈ g.connected s := (mem_connected_iff hg.sound s t).mpr ⟨ht, hids, hmeet⟩
  have hts : s ∈ g.connected t := (mem_connected_iff hg.sound t s).mpr ⟨hs, hids.symm, hmeet.symm⟩
  have hsflag := reports_neighbour_iff hg.sound hs hsvalid hsnear hswalk hst ((validStart_iff t).mp htvalid).1
  have htflag := reports_neighbour_iff hg.sound ht htvalid htnear htwalk hts ((validStart_iff s).mp hsvalid).1
  rw [Names.inconsistentNames_comm t.name] at htflag
  exact ⟨hsflag.trans htflag.symm, hsflag, Names.inconsistentNames_comm _ _⟩

theorem neighbours_report_each_other_misspeltRoads :
    misspeltRoads.Built ∧ maimStreet ∈ misspeltRoads.segments ∧ mainStreet ∈ misspeltRoads.segments ∧
      maimStreet ≠ mainStreet ∧ maimStreet.Meets misspeltRoads.digits mainStreet ∧
      validStart maimStreet = true ∧ validStart mainStreet = true ∧
      EndsWithin maimStreet .greatest maimStreet ∧ EndsWithin mainStreet .greatest mainStreet ∧
      (∃ nearby, misspeltRoads.collect maimStreet .greatest = .ok nearby) ∧
      (∃ nearby, misspeltRoads.collect mainStreet .greatest = .ok nearby) ∧
      unlimited.Reports misspeltRoads maimStreet mainStreet ∧
      unlimited.Reports misspeltRoads mainStreet maimStreet := by
  have hids := built_misspeltRoads.sound.numbered
  have hmain : mainStreet ∈ misspeltRoads.segments := by simp [segments_misspeltRoads]
  have hne : maimStreet ≠ mainStreet := fun h => absurd (congrArg Segment.id h) (by decide)
  have hmeet : maimStreet.Meets misspeltRoads.digits mainStreet := ⟨east, east, .inr rfl, .inl rfl, rfl⟩
  have hends : ∀ t ∈ misspeltRoads.segments, t.finish ≠ none := by
    simp [segments_misspeltRoads, maimStreet, mainStreet, outward, homeward]
  have hmaimWalk := collect_ok_of_ends_known .greatest hids maimStreet_mem_segments
    (by simp [maimStreet, outward]) hends
  have hmainWalk := collect_ok_of_ends_known .greatest hids hmain (by simp [mainStreet, homeward]) hends
  have hmaimNear : EndsWithin maimStreet .greatest maimStreet := ⟨west, east, rfl, rfl, Distance.le_greatest _⟩
  have hmainNear : EndsWithin mainStreet .greatest mainStreet := ⟨east, west, rfl, rfl, Distance.le_greatest _⟩
  have hmaimValid : validStart maimStreet = true := by decide +kernel
  have hmainValid : validStart mainStreet = true := by decide +kernel
  obtain ⟨hmutual, hnames, _⟩ := neighbours_report_each_other unlimited built_misspeltRoads maimStreet_mem_segments
    hmain hne hmeet hmaimValid hmainValid hmaimNear hmainNear hmaimWalk hmainWalk
  have hreports := hnames.mpr (by decide +kernel)
  exact ⟨built_misspeltRoads, maimStreet_mem_segments, hmain, hne, hmeet, hmaimValid, hmainValid, hmaimNear,
    hmainNear, hmaimWalk, hmainWalk, hreports, hmutual.mp hreports⟩

end Check

theorem Network.SamePrimary.mem_iff_of_validStart {g h : Network} (same : g.SamePrimary h) {s : Segment}
    (hvalid : Check.validStart s = true) : s ∈ g.segments ↔ s ∈ h.segments :=
  same.primary s ((Check.validStart_iff s).mp hvalid).1

namespace Check

open Network

theorem misspelt_congr {s : Segment} {found others : List Segment}
    (hmem : ∀ t, t ∈ found ↔ t ∈ others) (hfound : (found.map (·.id)).Nodup)
    (hothers : (others.map (·.id)).Nodup) : misspelt s found = misspelt s others := by
  have hsorted : ∀ {ts : List Segment}, (ts.map (·.id)).Nodup →
      ((misspelt s ts).map (·.id)).Pairwise (· < ·) := fun hts =>
    pairwise_sortById (hts.sublist (List.filter_sublist.map _))
  refine eq_of_pairwise_lt Segment.id (hsorted hfound) (hsorted hothers) fun t => ?_
  rw [mem_misspelt, mem_misspelt, hmem]

theorem flagBy_toOption (c : Check) (search : Search) {s : Segment} (hvalid : validStart s = true) :
    (c.flagBy search s).toOption =
      ((search s c.limit).toOption.map (misspelt s)).map (c.verdict s) := by
  rcases flagBy_cases c search s with ⟨hnot, _⟩ | ⟨_, fault, hfail, hflag⟩ | ⟨_, nearby, hfound, _⟩
  · rw [hvalid] at hnot; cases hnot
  · rw [hfail, hflag]; rfl
  · rw [hfound, flagBy_of_ok hvalid hfound]; rfl

theorem flagBy_toOption_congr (c : Check) {search other : Search} {g h : Network} {s : Segment}
    (hsearch : search.Exact g s c.limit) (hother : other.Exact h s c.limit)
    (hreach : ∀ t, g.Reaches s c.limit t ↔ h.Reaches s c.limit t) :
    (c.flagBy search s).toOption = (c.flagBy other s).toOption := by
  have hblocked : g.Blocked s c.limit ↔ h.Blocked s c.limit := by simp only [Blocked, hreach]
  have hhits : (search s c.limit).toOption.map (misspelt s) =
      (other s c.limit).toOption.map (misspelt s) := by
    by_cases hb : g.Blocked s c.limit
    · obtain ⟨fault, hfault⟩ := hsearch.fails hb
      obtain ⟨fault', hfault'⟩ := hother.fails (hblocked.mp hb)
      rw [hfault, hfault']
      rfl
    · obtain ⟨found, hfound, hmem, hids⟩ := hsearch.finds hb
      obtain ⟨others, hothers, hmem', hids'⟩ := hother.finds (mt hblocked.mpr hb)
      rw [hfound, hothers]
      exact congrArg some (misspelt_congr (fun t => by rw [hmem, hmem', hreach]) hids hids')
  cases hvalid : validStart s with
  | false => simp [hvalid]
  | true => rw [flagBy_toOption c search hvalid, flagBy_toOption c other hvalid, hhits]

end Check

end RoadNames
