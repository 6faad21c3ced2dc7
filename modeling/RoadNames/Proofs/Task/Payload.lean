import RoadNames.Proofs.Check.Flag
import RoadNames.Task
set_option autoImplicit false

namespace RoadNames

def TagChange.asked (t : TagChange) : TagOperation :=
  if t.kind = .remove then .unset t.key else .set t.key t.value

/-- What a change asks for, unless it adds an element. -/
def Change.asked (c : Change) : Operation :=
  ⟨if c.kind = .remove then .remove else .modify, c.id, c.tags.map TagChange.asked⟩

namespace Operation

theorem ofTagChange_eq (t : TagChange) : ofTagChange t = t.asked := by
  obtain ⟨kind, key, value⟩ := t
  cases kind <;> rfl

theorem ofChange_eq (c : Change) :
    ofChange c = if c.kind = .add then .error (.unsupportedChange .add) else .ok c.asked := by
  have htags : c.tags.map ofTagChange = c.tags.map TagChange.asked :=
    List.map_congr_left fun t _ => ofTagChange_eq t
  rw [ofChange, htags, Change.asked]
  cases c.kind <;> rfl

theorem cooperativeWork_eq (changes : List Change) :
    cooperativeWork changes =
      if ∃ c ∈ changes, c.kind = .add then .error (.unsupportedChange .add)
      else .ok (changes.map Change.asked) := by
  induction changes with
  | nil => simp [cooperativeWork]
  | cons c rest ih =>
    rw [cooperativeWork, ofChange_eq, ih]
    by_cases hc : c.kind = .add
    · simp [hc]
    · by_cases hrest : ∃ d ∈ rest, d.kind = .add <;> simp [hc, hrest]

end Operation

theorem Flag.cooperativeWork_fixes (f : Flag) :
    Operation.cooperativeWork f.fixes = .ok (f.fixes.map Change.asked) := by
  rw [Operation.cooperativeWork_eq, if_neg]
  rintro ⟨c, hc, hkind⟩
  obtain ⟨s, _, rfl⟩ := List.mem_map.mp hc
  cases hkind

namespace Task

/-- Points behind those that are there, each unless it is there by then. -/
def merge (there added : List TaskPoint) : List TaskPoint :=
  added.foldl (fun there p => if there.any p.same then there else there ++ [p]) there

theorem merge_cons (there : List TaskPoint) (p : TaskPoint) (added : List TaskPoint) :
    merge there (p :: added) = merge (if there.any p.same then there else there ++ [p]) added :=
  rfl

theorem addPoints_eq_merge (t : Task) (ps : List TaskPoint) :
    t.addPoints ps = { t with points := merge t.points ps } := by
  induction ps generalizing t with
  | nil => rfl
  | cons p ps ih =>
    have hpoint : t.addPoint p = { t with points := if t.points.any p.same then t.points else t.points ++ [p] } := by
      unfold addPoint
      split <;> rfl
    rw [addPoints, List.foldl_cons, ← addPoints, ih, hpoint]
    rfl

theorem prefix_merge (there added : List TaskPoint) : there <+: merge there added := by
  induction added generalizing there with
  | nil => exact List.prefix_rfl
  | cons p added ih =>
    rw [merge_cons]
    split
    · exact ih there
    · exact (List.prefix_append there [p]).trans (ih _)

theorem merge_ne_nil (there : List TaskPoint) {added : List TaskPoint} (h : added ≠ []) : merge there added ≠ [] := by
  obtain ⟨p, rest, rfl⟩ := List.exists_cons_of_ne_nil h
  rw [merge_cons]
  refine (prefix_merge _ rest).ne_nil ?_
  split
  case isTrue hp =>
    rintro rfl
    cases hp
  case isFalse => simp

theorem features_of_points {t : Task} (hpoints : t.points ≠ []) (hgeojson : t.geojson = none) :
    t.features = .ok (t.points.map pointFeature) := by
  simp [features, extraFeatures, hgeojson, hpoints]

theorem payload_ok {t : Task} (hpoints : t.points ≠ []) (hgeojson : t.geojson = none) (parent : Int) :
    ∃ payload, t.payload parent = .ok payload := by
  cases h : t.payload parent with
  | ok payload => exact ⟨payload, rfl⟩
  | error e => simp [payload, features_of_points hpoints hgeojson] at h

def base (f : Flag) : Task :=
  { challenge := f.checkName, identifier := f.identifier, instruction := f.instruction }

def flagPoints (f : Flag) : List TaskPoint := f.points.map fun p => ⟨p.place, p.description⟩

theorem ofFlag_eq {f : Flag} {ops : List Operation} (hops : Operation.cooperativeWork f.fixes = .ok ops)
    (project : String) :
    ofFlag f project =
      .ok { (base f).addPoints (flagPoints f) with project := project, operations := ops } := by
  simp only [ofFlag, setCooperativeWork, hops, addPoints_eq_merge, base, flagPoints]

/-- A flag with a point can be handed in, and the same is handed in for every project. -/
theorem payload_ofFlag {f : Flag} (h : f.points ≠ []) (parent : Int) :
    ∃ payload, ∀ project, ∃ task, ofFlag f project = .ok task ∧ task.payload parent = .ok payload := by
  have hops := f.cooperativeWork_fixes
  have hpoints : merge [] (flagPoints f) ≠ [] := merge_ne_nil [] (by simpa [flagPoints] using h)
  obtain ⟨payload, hpayload⟩ :=
    payload_ok (t := { base f with points := merge [] (flagPoints f), operations := f.fixes.map Change.asked })
      hpoints rfl parent
  refine ⟨payload, fun project => ⟨_, ofFlag_eq hops project, ?_⟩⟩
  rw [addPoints_eq_merge]
  exact hpayload

end Task

theorem Check.id_eq_of_describe_eq {s t : Segment} (h : describe s = describe t) : s.id = t.id := by
  have hchars := congrArg String.toList h
  simp only [describe, String.toList_append, List.append_assoc] at hchars
  exact Text.eq_of_toString_colon (List.append_cancel_left hchars)

theorem Operation.cooperativeWork_setTag (ids : List Int) (key : String) (value : Json) :
    cooperativeWork (ids.map fun id => .setTag id key value) =
      .ok (ids.map fun id => ⟨.modify, id, [.set key value]⟩) := by
  induction ids with
  | nil => rfl
  | cons id rest ih =>
    have hop : ofChange (.setTag id key value) = .ok ⟨.modify, id, [.set key value]⟩ := rfl
    simp only [List.map_cons, cooperativeWork, hop, ih]

namespace Task

theorem merge_of_pairwise (there : List TaskPoint) {added : List TaskPoint}
    (h : (there ++ added).Pairwise fun p q => q.same p = false) : merge there added = there ++ added := by
  -- each point differs from those behind it and from those that are there already
  induction added generalizing there with
  | nil => exact (List.append_nil there).symm
  | cons p rest ih =>
    have habsent : ¬ there.any p.same = true := by
      rw [Bool.not_eq_true, List.any_eq_false]
      exact fun q hq => Bool.eq_false_iff.mp ((List.pairwise_append.mp h).2.2 q hq p List.mem_cons_self)
    rw [merge_cons, if_neg habsent, ih _ (by simpa using h), List.append_assoc, List.singleton_append]

def pointAt (s : Segment) (p : Location) : TaskPoint := ⟨p, some (Check.describe s)⟩

theorem pairwise_pointAt {segments : List Segment} (h : (segments.map (·.id)).Nodup) :
    (segments.filterMap fun t => t.start.map (pointAt t)).Pairwise fun p q => q.same p = false := by
  refine List.pairwise_filterMap.mpr ((List.pairwise_map.mp h).imp fun {s t} hne p hp q hq => ?_)
  obtain ⟨a, _, rfl⟩ := Option.map_eq_some_iff.mp hp
  obtain ⟨b, _, rfl⟩ := Option.map_eq_some_iff.mp hq
  have hdescribe : Check.describe t ≠ Check.describe s := fun hd =>
    hne (Check.id_eq_of_describe_eq hd).symm
  simp [TaskPoint.same, pointAt, hdescribe]

/-- What shows a segment that starts at the given place. -/
def placeFeature (s : Segment) (p : Location) : Json :=
  .obj [
    ("type", .str "Feature"),
    ("geometry", .obj [("type", .str "Point"), ("coordinates", .arr [.float p.lon, .float p.lat])]),
    ("properties", .obj [("description", .str (Check.describe s))])]

/-- What asks for another name of the segment with this number. -/
def nameOperation (name : String) (id : Int) : Json :=
  .obj [
    ("operationType", .str "modifyElement"),
    ("data", .obj [
      ("id", .int id),
      ("operations", .arr [
        .obj [("operation", .str "setTags"), ("data", .obj [("name", .str name)])]])])]

theorem map_pointFeature (segments : List Segment) :
    (segments.filterMap fun t => t.start.map (pointAt t)).map pointFeature =
      segments.filterMap fun t => t.start.map (placeFeature t) := by
  simp only [List.map_filterMap, Option.map_map]
  rfl

variable {g : Network} {s : Segment} {f : Flag} {limit : Distance}

theorem flagPoints_eq (h : f.Exact g s limit) :
    flagPoints f = (s :: f.flagged).filterMap fun t => t.start.map (pointAt t) := by
  obtain ⟨p, hstart, hpoints⟩ := h.points
  rw [flagPoints, hpoints]
  simp only [List.map_cons, List.map_filterMap, Option.map_map, List.filterMap_cons, hstart,
    Option.map_some]
  rfl

theorem ofFlag_of_exact (h : f.Exact g s limit) {name : String} (hname : s.name = some name)
    (project : String) :
    ofFlag f project = .ok { base f with
      project := project
      points := flagPoints f
      operations := (f.flagged.map (·.id)).map fun id =>
        ⟨.modify, id, [.set Segment.nameKey (.str name)]⟩ } := by
  have hops := Operation.cooperativeWork_setTag (f.flagged.map (·.id)) Segment.nameKey (.str name)
  rw [← f.fixes_eq (h.start ▸ hname)] at hops
  have hpoints : (base f).addPoints (flagPoints f) = { base f with points := flagPoints f } := by
    have hpairwise := pairwise_pointAt h.nodup_ids
    rw [← flagPoints_eq h] at hpairwise
    rw [addPoints_eq_merge]
    exact congrArg (fun points => { base f with points := points }) (merge_of_pairwise [] hpairwise)
  rw [ofFlag_eq hops, hpoints]

/-- Whatever is flagged can be handed in, in any project and to any challenge. The start is shown first,
then each flagged segment whose start is known, and each flagged segment is to take the name of the
start. -/
theorem payload_of_flag (c : Check) (hg : g.Built) (hs : s ∈ g.segments)
    (hflag : c.flag g s = .ok (some f)) (project : String) (parent : Int) :
    ∃ task p name, ofFlag f project = .ok task ∧ s.start = some p ∧ s.name = some name ∧
      f.flagged ≠ [] ∧ s.id ∉ f.flagged.map (·.id) ∧ (f.flagged.map (·.id)).Pairwise (· < ·) ∧
      task.payload parent = .ok (.obj [
        ("instruction", .str f.instruction),
        ("name", .str (toString s.id)),
        ("parent", .int parent),
        ("geometries", .obj [
          ("type", .str "FeatureCollection"),
          ("features", .arr (placeFeature s p ::
            f.flagged.filterMap fun t => t.start.map (placeFeature t)))]),
        ("cooperativeWork", .obj [
          ("meta", .obj [("version", .int 2), ("type", .int 1)]),
          ("operations", .arr (f.flagged.map fun t => nameOperation name t.id))])]) := by
  have hexact := Check.exact_of_flag hg.sound hs hflag
  obtain ⟨name, hname, _⟩ := hexact.fixes
  obtain ⟨p, hstart, _⟩ := hexact.points
  obtain ⟨_, _, _, hhits, hf⟩ := Check.exists_of_flag hflag
  have hflagged : f.flagged ≠ [] := by rw [← hf]; exact hhits
  have hidentifier : f.identifier = toString s.id := by rw [← hf]; rfl
  have hpoints : (flagPoints f).map pointFeature =
      placeFeature s p :: f.flagged.filterMap fun t => t.start.map (placeFeature t) := by
    rw [flagPoints_eq hexact, map_pointFeature, List.filterMap_cons_some (by rw [hstart]; rfl)]
  have hnonempty : flagPoints f ≠ [] := fun hnil => by simp [hnil] at hpoints
  refine ⟨_, p, name, ofFlag_of_exact hexact hname project, hstart, hname, hflagged,
    (List.nodup_cons.mp hexact.nodup_ids).1, hexact.ordered, ?_⟩
  simp [payload, features_of_points, hnonempty, base, hpoints, cooperativeFields, hflagged, hidentifier,
    Operation.toJson, Operation.actionName, Operation.tagJson, nameOperation, Segment.nameKey,
    Function.comp_def]

open Network Check

theorem flagged_maimStreet (hflag : unlimited.flag misspeltRoads maimStreet = .ok (some f))
    (hmain : mainStreet ∈ f.flagged) : f.flagged = [mainStreet] := by
  have hexact := exact_of_flag built_misspeltRoads.sound maimStreet_mem_segments hflag
  have hnodup : f.flagged.Nodup := (List.nodup_cons.mp hexact.nodup_ids).2.of_map
  have hsingle : [mainStreet].Nodup := List.nodup_singleton _
  refine List.perm_singleton.mp ((List.perm_ext_iff_of_nodup hnodup hsingle).mpr fun t => ?_)
  rw [List.mem_singleton]
  refine ⟨fun ht => ?_, fun ht => ht ▸ hmain⟩
  have hsegments := ((hexact.flagged t).mp ht).1.mem_segments
  rw [segments_misspeltRoads] at hsegments
  rcases List.mem_pair.mp hsegments with rfl | rfl
  · exact absurd rfl (hexact.id_ne ht)
  · rfl

theorem payload_of_misspeltRoads :
    ∃ f task, misspeltRoads.Built ∧ maimStreet ∈ misspeltRoads.segments ∧
      unlimited.flag misspeltRoads maimStreet = .ok (some f) ∧ ofFlag f "" = .ok task ∧
      task.payload 5 = .ok (.obj [
        ("instruction", .str f.instruction),
        ("name", .str "1"),
        ("parent", .int 5),
        ("geometries", .obj [
          ("type", .str "FeatureCollection"),
          ("features", .arr [placeFeature maimStreet west, placeFeature mainStreet east])]),
        ("cooperativeWork", .obj [
          ("meta", .obj [("version", .int 2), ("type", .int 1)]),
          ("operations", .arr [nameOperation "Maim Street" 2])])]) := by
  obtain ⟨f, hflag, hmain⟩ := exists_flag_maimStreet
  obtain ⟨task, p, name, htask, hstart, hname, _, _, _, hpayload⟩ :=
    payload_of_flag unlimited built_misspeltRoads maimStreet_mem_segments hflag "" 5
  have hp : west = p := Option.some.inj hstart
  have hfull : maimStreet.name = some "Maim Street" := by decide +kernel
  obtain rfl : "Maim Street" = name := Option.some.inj (hfull.symm.trans hname)
  rw [flagged_maimStreet hflag hmain, ← hp] at hpayload
  exact ⟨f, task, built_misspeltRoads, maimStreet_mem_segments, hflag, htask, hpayload⟩

end Task

end RoadNames
