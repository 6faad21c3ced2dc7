import Mathlib.Data.Int.Order.Basic
import RoadNames.Check
import RoadNames.Proofs.Basic
import RoadNames.Proofs.Network.Reach
set_option autoImplicit false

/-!
What a flag says. A start that can be searched from is flagged just if its reach holds a segment whose
name is one edit away, and the flag lists all of these in order, with a pair and a fix for each.
-/

namespace RoadNames

namespace Names

theorem inconsistentNames_iff (a b : Option String) :
    inconsistentNames a b = true ↔
      ∃ x y, a = some x ∧ b = some y ∧ inconsistent x.toList y.toList = true := by
  unfold inconsistentNames
  split
  · simp
  · rename_i h
    refine iff_of_false Bool.false_ne_true fun hxy => ?_
    obtain ⟨x, y, rfl, rfl, _⟩ := hxy
    exact h x y rfl rfl

theorem editDistance_of_inconsistent {a b : List Char} (h : inconsistent a b = true) :
    editDistance a b = 1 :=
  (editDistance_eq_one_iff a b).mpr ((inconsistent_iff a b).mp h).2.2.1

end Names

namespace Network

theorem Reaches.isPrimary {g : Network} {s t : Segment} {limit : Distance} (h : g.Reaches s limit t) :
    t.isPrimary = true := by
  obtain ⟨u, _, hlink⟩ := Relation.TransGen.tail'_iff.mp h.2
  exact hlink.primary

theorem Reaches.mem_segments {g : Network} {s t : Segment} {limit : Distance}
    (h : g.Reaches s limit t) : t ∈ g.segments := by
  obtain ⟨u, _, hlink⟩ := Relation.TransGen.tail'_iff.mp h.2
  exact connected_mem hlink.joined

theorem exists_start_of_collect {g : Network} {s : Segment} {limit : Distance} {nearby : List Segment}
    (hids : g.ids.Nodup) (hs : s ∈ g.segments) (h : g.collect s limit = .ok nearby) :
    ∃ p, s.start = some p := by
  cases hstart : s.start with
  | some p => exact ⟨p, rfl⟩
  | none =>
    have hblocked : g.Blocked s limit := .inl hstart
    obtain ⟨fault, hfault⟩ := collect_fails_of_blocked hids hs hblocked
    rw [h] at hfault
    cases hfault

theorem collect_ok_of_ends_known {g : Network} {s : Segment} (limit : Distance) (hids : g.ids.Nodup)
    (hs : s ∈ g.segments) (hstart : s.start ≠ none) (hends : ∀ t ∈ g.segments, t.finish ≠ none) :
    ∃ nearby, g.collect s limit = .ok nearby := by
  cases h : g.collect s limit with
  | ok nearby => exact ⟨nearby, rfl⟩
  | error fault =>
    rcases blocked_of_collect_error hids hs h with hnone | hnone | ⟨t, ht, hnone⟩
    · exact absurd hnone hstart
    · exact absurd hnone (hends s hs)
    · exact absurd hnone (hends t ht.mem_segments)

end Network

namespace Check

theorem mem_sortById (segments : List Segment) (t : Segment) : t ∈ sortById segments ↔ t ∈ segments :=
  (List.mergeSort_perm segments _).mem_iff

theorem pairwise_sortById {segments : List Segment} (h : (segments.map (·.id)).Nodup) :
    ((sortById segments).map (·.id)).Pairwise (· < ·) :=
  pairwise_lt_mergeSort Segment.id (fun _ _ => decide_eq_true_iff) h

theorem validStart_iff (s : Segment) :
    validStart s = true ↔ s.isPrimary = true ∧ ∃ name, s.name = some name := by
  simp [validStart, Option.isSome_iff_exists]

def misspelt (start : Segment) (nearby : List Segment) : List Segment :=
  sortById (nearby.filter fun t => Names.inconsistentNames t.name start.name)

theorem inconsistentBy_of_unnamed (c : Check) (search : Search) {s : Segment} (h : s.name = none) :
    c.inconsistentBy search s = .ok [] := by simp [inconsistentBy, h]

theorem inconsistentBy_of_name (c : Check) (search : Search) {s : Segment} {name : String}
    (h : s.name = some name) : c.inconsistentBy search s = (search s c.limit).map (misspelt s) := by
  unfold inconsistentBy
  rw [h]
  cases search s c.limit <;> simp [Except.map, misspelt, h]

theorem flagBy_cases (c : Check) (search : Search) (s : Segment) :
    (validStart s = false ∧ c.flagBy search s = .ok none) ∨
    (validStart s = true ∧ ∃ fault, search s c.limit = .error fault ∧
      c.flagBy search s = .error fault) ∨
    (validStart s = true ∧ ∃ nearby, search s c.limit = .ok nearby ∧
      ((misspelt s nearby = [] ∧ c.flagBy search s = .ok none) ∨
        (misspelt s nearby ≠ [] ∧ c.flagBy search s = .ok (some (c.flagOf s (misspelt s nearby)))))) := by
  cases hvalid : validStart s with
  | false => exact .inl ⟨rfl, by simp [hvalid]⟩
  | true =>
    obtain ⟨_, name, hname⟩ := (validStart_iff s).mp hvalid
    cases hwalk : search s c.limit with
    | error fault =>
      have hfail : c.inconsistentBy search s = .error fault := by
        rw [inconsistentBy_of_name c search hname, hwalk, Except.map]
      exact .inr (.inl ⟨rfl, fault, rfl, by simp [flagBy, hvalid, hfail]⟩)
    | ok nearby =>
      have hfound : c.inconsistentBy search s = .ok (misspelt s nearby) := by
        rw [inconsistentBy_of_name c search hname, hwalk, Except.map]
      refine .inr (.inr ⟨rfl, nearby, rfl, ?_⟩)
      cases hhits : misspelt s nearby with
      | nil => exact .inl ⟨rfl, by simp [flagBy, hvalid, hfound, hhits]⟩
      | cons t rest => exact .inr ⟨by simp, by simp [flagBy, hvalid, hfound, hhits]⟩

theorem flag_cases (c : Check) (g : Network) (s : Segment) :
    (validStart s = false ∧ c.flag g s = .ok none) ∨
    (validStart s = true ∧ ∃ fault, g.collect s c.limit = .error fault ∧ c.flag g s = .error fault) ∨
    (validStart s = true ∧ ∃ nearby, g.collect s c.limit = .ok nearby ∧
      ((misspelt s nearby = [] ∧ c.flag g s = .ok none) ∨
        (misspelt s nearby ≠ [] ∧ c.flag g s = .ok (some (c.flagOf s (misspelt s nearby)))))) :=
  flagBy_cases c g.collect s

def verdict (c : Check) (s : Segment) (hits : List Segment) : Option Flag :=
  if hits.isEmpty then none else some (c.flagOf s hits)

theorem flagBy_of_ok {c : Check} {search : Search} {s : Segment} {nearby : List Segment}
    (hvalid : validStart s = true) (h : search s c.limit = .ok nearby) :
    c.flagBy search s = .ok (c.verdict s (misspelt s nearby)) := by
  rcases flagBy_cases c search s with ⟨hnot, _⟩ | ⟨_, fault, hfail, _⟩ | ⟨_, found, hfound, hcase⟩
  · rw [hvalid] at hnot; cases hnot
  · rw [h] at hfail; cases hfail
  · obtain rfl : nearby = found := Except.ok.inj (h.symm.trans hfound)
    rcases hcase with ⟨hnone, hflag⟩ | ⟨hhits, hflag⟩
    · simp [hflag, hnone, verdict]
    · simp [hflag, hhits, verdict]

theorem exists_of_flag {c : Check} {g : Network} {s : Segment} {f : Flag}
    (h : c.flag g s = .ok (some f)) :
    validStart s = true ∧ ∃ nearby, g.collect s c.limit = .ok nearby ∧ misspelt s nearby ≠ [] ∧
      c.flagOf s (misspelt s nearby) = f := by
  rcases flag_cases c g s with ⟨_, hflag⟩ | ⟨_, fault, _, hflag⟩ | ⟨hvalid, nearby, hwalk, hcase⟩
  · simp [h] at hflag
  · simp [h] at hflag
  · rcases hcase with ⟨_, hflag⟩ | ⟨hhits, hflag⟩
    · simp [h] at hflag
    · exact ⟨hvalid, nearby, hwalk, hhits, by simpa [h] using hflag.symm⟩

theorem mem_misspelt (s : Segment) (nearby : List Segment) (t : Segment) :
    t ∈ misspelt s nearby ↔ t ∈ nearby ∧ Names.inconsistentNames t.name s.name = true := by
  rw [misspelt, mem_sortById, List.mem_filter]

theorem misspelt_subset {nearby found : List Segment} (h : nearby ⊆ found) (s : Segment) :
    misspelt s nearby ⊆ misspelt s found := by
  intro t ht
  rw [mem_misspelt] at ht ⊢
  exact ⟨h ht.1, ht.2⟩

def describe (s : Segment) : String := "segment " ++ toString s.id ++ ": " ++ shownText? s.name

theorem pointOf_eq (s : Segment) : pointOf s = s.start.map fun p => ⟨p, some (describe s)⟩ := rfl

end Check

/-- A flag that names all that is to be found from `s` within `limit`, and nothing else. -/
structure Flag.Exact (f : Flag) (g : Network) (s : Segment) (limit : Distance) : Prop where
  start : f.start = s
  flagged : ∀ t, t ∈ f.flagged ↔
    g.Reaches s limit t ∧ Names.inconsistentNames t.name s.name = true
  ordered : (f.flagged.map (·.id)).Pairwise (· < ·)
  spelt : ∀ t ∈ f.flagged, t.isPrimary = true ∧
    ∃ a b, t.name = some a ∧ s.name = some b ∧ Names.editDistance a.toList b.toList = 1
  pairs : f.pairs = f.flagged.map fun t => ⟨s.id, t.id, s.name, t.name⟩
  fixes : ∃ name, s.name = some name ∧
    f.fixes = f.flagged.map fun t => .setTag t.id Segment.nameKey (.str name)
  points : ∃ p, s.start = some p ∧
    f.points = ⟨p, some (Check.describe s)⟩ ::
      f.flagged.filterMap fun t => t.start.map fun q => ⟨q, some (Check.describe t)⟩

namespace Flag

variable {f : Flag} {g : Network} {s : Segment} {limit : Distance}

theorem Exact.id_ne (h : f.Exact g s limit) {t : Segment} (ht : t ∈ f.flagged) : t.id ≠ s.id :=
  ((h.flagged t).mp ht).1.1

theorem Exact.nodup_ids (h : f.Exact g s limit) : ((s :: f.flagged).map (·.id)).Nodup := by
  rw [List.map_cons, List.nodup_cons]
  refine ⟨fun hmem => ?_, h.ordered.imp fun hlt => hlt.ne⟩
  obtain ⟨t, ht, hid⟩ := List.mem_map.mp hmem
  exact h.id_ne ht hid

theorem fixes_eq {name : String} (hname : f.start.name = some name) :
    f.fixes = (f.flagged.map (·.id)).map fun id => .setTag id Segment.nameKey (.str name) := by
  simp [fixes, hname, Json.ofText?, Function.comp_def]

end Flag

namespace Check

variable {g : Network} {s : Segment}

theorem flagOf_exact (c : Check) (hg : g.Sound) (hs : s ∈ g.segments) {nearby : List Segment}
    (hvalid : validStart s = true) (hwalk : g.collect s c.limit = .ok nearby) :
    (c.flagOf s (misspelt s nearby)).Exact g s c.limit := by
  obtain ⟨_, name, hname⟩ := (validStart_iff s).mp hvalid
  obtain ⟨p, hstart⟩ := Network.exists_start_of_collect hg.numbered hs hwalk
  have hfound : ∀ t, t ∈ misspelt s nearby ↔
      g.Reaches s c.limit t ∧ Names.inconsistentNames t.name s.name = true := fun t => by
    rw [mem_misspelt, Network.mem_collect_iff hg.numbered hs hwalk]
  have hnodup : ((nearby.filter fun t => Names.inconsistentNames t.name s.name).map (·.id)).Nodup :=
    (Network.nodup_ids_collectBy hwalk).sublist (List.filter_sublist.map _)
  refine ⟨rfl, hfound, pairwise_sortById hnodup, fun t ht => ?_, rfl, ⟨name, hname, ?_⟩, ⟨p, hstart, ?_⟩⟩
  · obtain ⟨hreach, hnames⟩ := (hfound t).mp ht
    obtain ⟨a, b, ha, hb, hab⟩ := (Names.inconsistentNames_iff _ _).mp hnames
    exact ⟨hreach.isPrimary, a, b, ha, hb, Names.editDistance_of_inconsistent hab⟩
  · simp [Flag.fixes, flagOf, hname, Json.ofText?]
  · have hpoint : pointOf s = some ⟨p, some (describe s)⟩ := by simp [pointOf_eq, hstart]
    show (s :: misspelt s nearby).filterMap pointOf = _
    rw [List.filterMap_cons_some hpoint]
    rfl

theorem exact_of_flag {c : Check} {f : Flag} (hg : g.Sound) (hs : s ∈ g.segments)
    (h : c.flag g s = .ok (some f)) : f.Exact g s c.limit := by
  obtain ⟨hvalid, nearby, hwalk, _, rfl⟩ := exists_of_flag h
  exact flagOf_exact c hg hs hvalid hwalk

/-- A start that cannot be searched from is passed over, whatever lies around it. Of the others those are
flagged whose reach holds a segment with their name spelt in another way, and a flag is exact. -/
theorem flag_exact (c : Check) (hg : g.Built) (hs : s ∈ g.segments) :
    ((s.isPrimary = false ∨ s.name = none) → c.flag g s = .ok none) ∧
    ((∃ nearby, g.collect s c.limit = .ok nearby) →
      ∃ answer, c.flag g s = .ok answer ∧
        (answer.isSome = true ↔ s.isPrimary = true ∧ s.name ≠ none ∧
          ∃ t, g.Reaches s c.limit t ∧ Names.inconsistentNames t.name s.name = true) ∧
        ∀ f, answer = some f → f.Exact g s c.limit) := by
  have hvalid : validStart s = true ↔ s.isPrimary = true ∧ s.name ≠ none := by
    rw [validStart_iff, Option.ne_none_iff_exists']
  refine ⟨fun h => ?_, fun hwalk => ?_⟩
  · have hinvalid : ¬ validStart s = true := by rw [hvalid]; grind
    simp [flag, hinvalid]
  · obtain ⟨nearby, hwalk⟩ := hwalk
    rcases flag_cases c g s with ⟨hnot, hflag⟩ | ⟨_, fault, hfail, _⟩ | ⟨hstart, found, hfound, hcase⟩
    · refine ⟨none, hflag, ?_, by simp⟩
      simp [← and_assoc, ← hvalid, hnot]
    · rw [hwalk] at hfail; cases hfail
    · obtain rfl : nearby = found := Except.ok.inj (hwalk.symm.trans hfound)
      have hexact := flagOf_exact c hg.sound hs hstart hwalk
      have hsome : misspelt s nearby ≠ [] ↔
          ∃ t, g.Reaches s c.limit t ∧ Names.inconsistentNames t.name s.name = true := by
        simp only [← hexact.flagged]
        exact ⟨List.exists_mem_of_ne_nil _, fun ⟨t, ht⟩ => List.ne_nil_of_mem ht⟩
      rcases hcase with ⟨hnone, hflag⟩ | ⟨hhits, hflag⟩
      · refine ⟨none, hflag, ?_, by simp⟩
        simp [← hsome, hnone]
      · refine ⟨_, hflag, ?_, fun f hf => Option.some.inj hf ▸ hexact⟩
        rw [← and_assoc, ← hvalid, ← hsome]
        exact iff_of_true rfl ⟨hstart, hhits⟩

open Network

def maimStreet : Segment := { outward with tags := [("name", .str "Maim Street")] }

def mainStreet : Segment := { homeward with tags := [("name", .str "Main Street")] }

def misspeltRoads : Network := ofArrivals 7 [maimStreet, mainStreet]

theorem segments_misspeltRoads : misspeltRoads.segments = [maimStreet, mainStreet] := rfl

theorem built_misspeltRoads : misspeltRoads.Built := built_ofArrivals 7 _

theorem maimStreet_mem_segments : maimStreet ∈ misspeltRoads.segments := by
  simp [segments_misspeltRoads]

theorem maimStreet_reaches_mainStreet : misspeltRoads.Reaches maimStreet .greatest mainStreet := by
  have hmem : mainStreet ∈ misspeltRoads.segments := by simp [segments_misspeltRoads]
  have hmeet : maimStreet.Meets misspeltRoads.digits mainStreet := ⟨east, east, .inr rfl, .inl rfl, rfl⟩
  have hjoined : mainStreet ∈ misspeltRoads.connected maimStreet :=
    (mem_connected_iff built_misspeltRoads.sound _ _).mpr ⟨hmem, by decide, hmeet⟩
  exact ⟨by decide, .single ⟨⟨west, east, rfl, rfl, Distance.le_greatest _⟩, hjoined, by decide⟩⟩

def unlimited : Check := ⟨.greatest, defaultChallenge⟩

theorem exists_flag_maimStreet :
    ∃ f, unlimited.flag misspeltRoads maimStreet = .ok (some f) ∧ mainStreet ∈ f.flagged := by
  have hids := built_misspeltRoads.sound.numbered
  obtain ⟨nearby, hwalk⟩ := collect_ok_of_ends_known .greatest hids maimStreet_mem_segments
    (by simp [maimStreet, outward])
    (by simp [segments_misspeltRoads, maimStreet, mainStreet, outward, homeward])
  have hmain : mainStreet ∈ misspelt maimStreet nearby :=
    (mem_misspelt _ _ _).mpr
      ⟨(mem_collect_iff hids maimStreet_mem_segments hwalk _).mpr maimStreet_reaches_mainStreet,
        by decide +kernel⟩
  have hflag : unlimited.flag misspeltRoads maimStreet =
      .ok (unlimited.verdict maimStreet (misspelt maimStreet nearby)) :=
    flagBy_of_ok (by decide +kernel) hwalk
  have hhits : (misspelt maimStreet nearby).isEmpty = false := by
    simpa using List.ne_nil_of_mem hmain
  rw [verdict, hhits] at hflag
  exact ⟨_, hflag, hmain⟩

theorem flags_maimStreet :
    misspeltRoads.Built ∧ maimStreet ∈ misspeltRoads.segments ∧
      (∃ nearby, misspeltRoads.collect maimStreet .greatest = .ok nearby) ∧
      ∃ f, (Check.mk .greatest defaultChallenge).flag misspeltRoads maimStreet = .ok (some f) ∧
        f.Exact misspeltRoads maimStreet .greatest ∧ mainStreet ∈ f.flagged := by
  have hbuilt : misspeltRoads.Built := built_ofArrivals 7 _
  have hmem : maimStreet ∈ misspeltRoads.segments := by simp [segments_misspeltRoads]
  have hwalk := collect_ok_of_ends_known .greatest hbuilt.sound.numbered hmem (by simp [maimStreet, outward])
    (by simp [segments_misspeltRoads, maimStreet, mainStreet, outward, homeward])
  have hnames : Names.inconsistentNames mainStreet.name maimStreet.name = true := by decide +kernel
  obtain ⟨answer, hflag, hiff, hexact⟩ :=
    (flag_exact (Check.mk .greatest defaultChallenge) hbuilt hmem).2 hwalk
  have hsome := hiff.mpr
    ⟨by decide, by decide +kernel, mainStreet, maimStreet_reaches_mainStreet, hnames⟩
  obtain ⟨f, rfl⟩ := Option.isSome_iff_exists.mp hsome
  have hf := hexact f rfl
  exact ⟨hbuilt, hmem, hwalk, f, hflag, hf,
    (hf.flagged mainStreet).mpr ⟨maimStreet_reaches_mainStreet, hnames⟩⟩

end Check

end RoadNames
