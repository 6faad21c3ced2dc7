import RoadNames.Proofs.Geography
import RoadNames.Run.Command
set_option autoImplicit false

namespace RoadNames

namespace Config

namespace Checked

variable {α β : Type} {P Q : α → Prop} {R : β → Prop}

def Meets (c : Checked α) (P : α → Prop) : Prop := ∀ a, c = .valid a → P a

theorem meets_any (c : Checked α) : c.Meets fun _ => True := fun _ _ => trivial

theorem meets_valid {a : α} (h : P a) : (valid a).Meets P := by
  rintro _ ⟨⟩
  exact h

theorem meets_fault (kind : FaultKind) : (fault kind : Checked α).Meets P := by
  rintro _ ⟨⟩

theorem Meets.mono {c : Checked α} (hc : c.Meets P) (h : ∀ a, P a → Q a) : c.Meets Q := fun a ha => h a (hc a ha)

theorem meets_map {f : α → β} {c : Checked α} (hc : c.Meets P) (h : ∀ a, P a → R (f a)) : (f <$> c).Meets R := by
  cases c with
  | valid a => exact meets_valid (h a (hc a rfl))
  | invalid faults => rintro _ ⟨⟩

theorem meets_seq {f : Checked (α → β)} {c : Checked α} (hf : f.Meets fun g => ∀ a, P a → R (g a))
    (hc : c.Meets P) : (f <*> c).Meets R := by
  cases f with
  | valid g =>
    cases c with
    | valid a => exact meets_valid (hf g rfl a (hc a rfl))
    | invalid faults => rintro _ ⟨⟩
  | invalid faults => cases c <;> rintro _ ⟨⟩

theorem meets_under {c : Checked α} (hc : c.Meets P) (key : String) : (c.under key).Meets P := by
  cases c with
  | valid a => exact hc
  | invalid faults => rintro _ ⟨⟩

theorem meets_ensure {c : Checked α} (hc : c.Meets P) (condition : α → Bool) (kind : FaultKind) :
    (c.ensure condition kind).Meets fun a => P a ∧ condition a = true := by
  cases c with
  | valid a =>
    cases h : condition a with
    | true =>
      have hpassed : (valid a).ensure condition kind = valid a := by simp [ensure, h]
      rw [hpassed]
      exact meets_valid ⟨hc a rfl, h⟩
    | false =>
      have hfailed : (valid a).ensure condition kind = fault kind := by simp [ensure, h]
      rw [hfailed]
      exact meets_fault kind
  | invalid faults => rintro _ ⟨⟩

theorem meets_required {read : Json → Checked α} (hread : ∀ v, (read v).Meets P) (fields : Json.Fields)
    (key : String) : (required fields key read).Meets P := by
  unfold required
  split
  · exact meets_under (hread _) key
  · exact meets_under (meets_fault .missing) key

theorem meets_optional {read : Json → Checked α} {default : α} (hread : ∀ v, (read v).Meets P) (hdefault : P default)
    (fields : Json.Fields) (key : String) : (optional fields key default read).Meets P := by
  unfold optional
  split
  · exact meets_under (hread _) key
  · exact meets_valid hdefault

theorem meets_object {read : Json.Fields → Checked α} (hread : ∀ fields, (read fields).Meets P)
    (known : List String) (v : Json) : (object known read v).Meets P := by
  cases v with
  | obj fields =>
    unfold object
    dsimp only
    split
    · exact hread fields
    · rintro _ ⟨⟩
  | _ => exact meets_fault .modelType

theorem meets_nullable {read : Json → Checked α} (hread : ∀ v, (read v).Meets P) (v : Json) :
    (nullable read v).Meets fun o => ∀ a, o = some a → P a := by
  unfold nullable
  split
  · exact meets_valid (by simp)
  · exact meets_map (hread v) (by simp)

end Checked

open Checked

structure SearchDistance.InBounds (d : SearchDistance) : Prop where
  value : 0 ≤ d.value

structure Region.InBounds (r : Region) : Prop where
  lat : -90 ≤ r.lat ∧ r.lat ≤ 90
  lon : -180 ≤ r.lon ∧ r.lon ≤ 180
  radius : 0 < r.radius

structure RunSettings.InBounds (r : RunSettings) : Prop where
  workers : 1 ≤ r.workers
  fraction : 0 < r.fraction ∧ r.fraction ≤ 1
  region : ∀ region, r.region = some region → region.InBounds

structure LogSettings.InBounds (l : LogSettings) : Prop where
  level : l.level ≠ .critical
  sampleEvery : 1 ≤ l.sampleEvery

/-- All that the checks ask for. -/
structure InBounds (c : Config) : Prop where
  limit : c.check.limit.InBounds
  runs : c.runs.InBounds
  log : c.log.InBounds

theorem readDistance_inBounds (v : Json) : (readDistance v).Meets SearchDistance.InBounds := by
  refine meets_object (fun fields => ?_) _ v
  have hvalue : (required fields "value" fun v => (readFloat v).ensure (0 ≤ ·) .greaterThanEqual).Meets (0 ≤ ·) :=
    meets_required (fun v => (meets_ensure (meets_any _) _ _).mono fun x hx => of_decide_eq_true hx.2) fields _
  exact meets_seq (meets_map hvalue fun x hx _ _ => ⟨hx⟩) (meets_any _)

theorem readAtLeastOne_meets (v : Json) : (readAtLeastOne v).Meets (1 ≤ ·) :=
  (meets_ensure (meets_any _) _ _).mono fun _ hn => of_decide_eq_true hn.2

theorem readBetween_meets (low high : Float) (v : Json) : (readBetween low high v).Meets fun x => low ≤ x ∧ x ≤ high :=
  (meets_ensure (meets_ensure (meets_any _) _ _) _ _).mono fun _ hx =>
    ⟨of_decide_eq_true hx.2, of_decide_eq_true hx.1.2⟩

theorem readPositive_meets (v : Json) : (readPositive v).Meets (0 < ·) :=
  (meets_ensure (meets_any _) _ _).mono fun _ hx => of_decide_eq_true hx.2

theorem readFraction_meets (v : Json) : (readFraction v).Meets fun x => 0 < x ∧ x ≤ 1 :=
  (meets_ensure (meets_ensure (meets_any _) _ _) _ _).mono fun _ hx =>
    ⟨of_decide_eq_true hx.2, of_decide_eq_true hx.1.2⟩

theorem readRegion_inBounds (v : Json) : (readRegion v).Meets Region.InBounds := by
  refine meets_object (fun fields => ?_) _ v
  have hlat := meets_required (readBetween_meets (-90) 90) fields "lat"
  have hlon := meets_required (readBetween_meets (-180) 180) fields "lon"
  have hradius := meets_required readPositive_meets fields "radius_m"
  exact meets_seq (meets_seq (meets_map hlat fun lat hlat lon hlon radius hradius => ⟨hlat, hlon, hradius⟩) hlon) hradius

theorem inBounds_defaultLimit : ({} : CheckSettings).limit.InBounds := ⟨by decide +kernel⟩

theorem inBounds_defaultRun : ({} : RunSettings).InBounds where
  workers := by decide
  fraction := by decide +kernel
  region := by simp

theorem inBounds_defaultLog : ({} : LogSettings).InBounds := ⟨by decide, by decide⟩

theorem readRun_inBounds (v : Json) : (readRun v).Meets RunSettings.InBounds := by
  refine meets_object (fun fields => ?_) _ v
  have hworkers := meets_optional readAtLeastOne_meets inBounds_defaultRun.workers fields "workers"
  have hfraction := meets_optional readFraction_meets inBounds_defaultRun.fraction fields "sample_fraction"
  have hregion := meets_optional (meets_nullable readRegion_inBounds) inBounds_defaultRun.region fields "region"
  exact meets_seq (meets_seq (meets_seq (meets_map hworkers fun workers hworkers seed _ fraction hfraction region
    hregion => ⟨hworkers, hfraction, hregion⟩) (meets_any _)) hfraction) hregion

theorem readLevel_meets (v : Json) : (readName findLevel? v).Meets (· ≠ .critical) := by
  cases v with
  | str name =>
    cases hlevel : findLevel? name with
    | none =>
      have hread : readName findLevel? (.str name) = fault .literalError := by simp [readName, hlevel]
      rw [hread]
      exact meets_fault .literalError
    | some level =>
      have hread : readName findLevel? (.str name) = valid level := by simp [readName, hlevel]
      have hne : level ≠ .critical := by simpa using (Option.filter_eq_some_iff.mp hlevel).2
      rw [hread]
      exact meets_valid hne
  | _ => exact meets_fault .literalError

theorem readLog_inBounds (v : Json) : (readLog v).Meets LogSettings.InBounds := by
  refine meets_object (fun fields => ?_) _ v
  have hlevel := meets_optional readLevel_meets inBounds_defaultLog.level fields "level"
  have hsample := meets_optional readAtLeastOne_meets inBounds_defaultLog.sampleEvery fields "sample_every"
  exact meets_seq (meets_seq (meets_map hlevel fun level hlevel debug _ sample hsample => ⟨hlevel, hsample⟩)
    (meets_any _)) hsample

theorem readCheck_inBounds (v : Json) : (readCheck v).Meets fun c => c.limit.InBounds := by
  refine meets_object (fun fields => ?_) _ v
  have hlimit := meets_optional readDistance_inBounds inBounds_defaultLimit fields "max_search_distance"
  exact meets_seq (meets_seq (meets_seq (meets_map hlimit fun limit hlimit challenge _ parent _ project _ => hlimit)
    (meets_any _)) (meets_any _)) (meets_any _)

/-- The values of a configuration that is accepted keep to their bounds, those that are not given included. -/
theorem read_inBounds (env : Environment) (v : Json) : (read env v).Meets Config.InBounds := by
  refine meets_object (fun fields => ?_) _ v
  have hcheck := meets_optional readCheck_inBounds inBounds_defaultLimit fields "check"
  have hruns := meets_optional readRun_inBounds inBounds_defaultRun fields "run"
  have hlog := meets_optional readLog_inBounds inBounds_defaultLog fields "log"
  exact meets_seq (meets_seq (meets_seq (meets_seq (meets_seq (meets_seq (meets_map (meets_any _)
    fun name _ run _ network _ check hcheck runs hruns log hlog output _ => ⟨hcheck, hruns, hlog⟩)
    (meets_any _)) (meets_any _)) hcheck) hruns) hlog) (meets_any _)

end Config

open Decimal

theorem zero_le_of_pos {x : Float} (h : 0 < x) : 0 ≤ x := by
  rw [lt_iff] at h
  rw [le_iff, h]
  rfl

/-- What is made of the numbers of a configuration can be made of them, and building it can fail for want of access
only. -/
structure Config.Builds (c : Config) : Prop where
  limit : ∃ d, c.check.limit.toDistance = .ok d
  region : ∀ r, c.runs.region = some r →
    (∃ p, Location.ofDegrees r.lat r.lon = .ok p) ∧ ∃ d, Distance.ofUnits r.radius .meters = .ok d
  build : ∀ library given logged e, (Application.build library given c logged).outcome = .error e →
    ∃ error, e = .access error

variable {c : Config}

theorem Application.regionOf_ok {r : Config.Region} {p : Location} {d : Distance}
    (hp : Location.ofDegrees r.lat r.lon = .ok p) (hd : Distance.ofUnits r.radius .meters = .ok d) :
    Application.regionOf r = .ok (p, d) := by
  rw [Application.regionOf, hp]
  dsimp only
  rw [hd]

theorem Application.runnerOf_ok {d : Distance} (hd : c.check.limit.toDistance = .ok d)
    (hregion : ∀ r, c.runs.region = some r → ∃ area, Application.regionOf r = .ok area) (g : Network) :
    ∃ runner, Application.runnerOf c g = .ok runner := by
  unfold Application.runnerOf
  rw [hd]
  dsimp only
  cases hr : c.runs.region with
  | none => exact ⟨_, rfl⟩
  | some r =>
    obtain ⟨area, harea⟩ := hregion r hr
    dsimp only
    rw [harea]
    exact ⟨_, rfl⟩

theorem Application.build_fails {library : Storage.Library} {given : Storage.Library.Given} {logged : Bool}
    {e : SetupError} (hrunner : ∀ g, ∃ runner, Application.runnerOf c g = .ok runner)
    (h : (Application.build library given c logged).outcome = .error e) : ∃ error, e = .access error := by
  unfold Application.build at h
  split at h
  case h_1 =>
    cases h
    exact ⟨_, rfl⟩
  case h_2 l warnings handle _ =>
    obtain ⟨runner, hrunner⟩ := hrunner handle.network
    dsimp only at h
    split at h
    case h_1 =>
      cases h
      exact ⟨_, rfl⟩
    case h_2 =>
      rw [hrunner] at h
      cases h

theorem Config.Builds.of_numbers (hlimit : ∃ d, c.check.limit.toDistance = .ok d)
    (hregion : ∀ r, c.runs.region = some r →
      (∃ p, Location.ofDegrees r.lat r.lon = .ok p) ∧ ∃ d, Distance.ofUnits r.radius .meters = .ok d) :
    c.Builds where
  limit := hlimit
  region := hregion
  build library given logged e h := by
    obtain ⟨d, hd⟩ := hlimit
    refine Application.build_fails (Application.runnerOf_ok hd fun r hr => ?_) h
    obtain ⟨⟨p, hp⟩, ⟨radius, hradius⟩⟩ := hregion r hr
    exact ⟨_, Application.regionOf_ok hp hradius⟩

/-- A configuration that is accepted can be built just if its limit is, in meters, below the number from which on
doubles overflow and the radius of its region, if it has one, is finite. -/
theorem Config.builds_iff_of_read {env : Config.Environment} {document : Json}
    (h : Config.read env document = .valid c) :
    c.Builds ↔ InReach c.check.limit.value c.check.limit.unit ∧
      ∀ r, c.runs.region = some r → isFinite r.radius = true := by
  have hbounds := Config.read_inBounds env document c h
  have hlimit := Distance.ofUnits_ok_iff hbounds.limit.value c.check.limit.unit
  have hradius : ∀ r, c.runs.region = some r →
      ((∃ d, Distance.ofUnits r.radius .meters = .ok d) ↔ isFinite r.radius = true) := fun r hr =>
    (Distance.ofUnits_ok_iff (zero_le_of_pos (hbounds.runs.region r hr).radius) .meters).trans (inReach_meters_iff _)
  constructor
  · intro hbuilds
    exact ⟨hlimit.mp hbuilds.limit, fun r hr => (hradius r hr).mp (hbuilds.region r hr).2⟩
  · rintro ⟨hreach, hfinite⟩
    refine .of_numbers (hlimit.mpr hreach) fun r hr => ⟨?_, (hradius r hr).mpr (hfinite r hr)⟩
    exact Location.ofDegrees_ok (hbounds.runs.region r hr).lat (hbounds.runs.region r hr).lon

def Config.sample (limit run : Json.Fields) : Json :=
  .obj [("name", .str "sample"), ("graph", .obj [("by", .str "name"), ("name", .str "roads")]),
    ("check", .obj [("max_search_distance", .obj limit)]), ("run", .obj run)]

theorem Config.builds_sample : ∃ c,
    Config.read [] (Config.sample [("value", .int 2)]
      [("region", .obj [("lat", .int 52), ("lon", .float 13.4), ("radius_m", .float 5e3)])]) = .valid c ∧ c.Builds := by
  have hfinite : isFinite (floatOfInt 2) = true ∧ isFinite 5e3 = true := by decide +kernel
  obtain ⟨c, hread, hlimit, hregion⟩ : ∃ c, Config.read [] (Config.sample [("value", .int 2)]
      [("region", .obj [("lat", .int 52), ("lon", .float 13.4), ("radius_m", .float 5e3)])]) = .valid c ∧
      c.check.limit = ⟨floatOfInt 2, .meters⟩ ∧ c.runs.region = some ⟨floatOfInt 52, 13.4, 5e3⟩ :=
    ⟨_, rfl, rfl, rfl⟩
  refine ⟨c, hread, (Config.builds_iff_of_read hread).mpr ⟨?_, ?_⟩⟩
  · rw [hlimit]
    exact (inReach_meters_iff _).mpr hfinite.1
  · intro r hr
    obtain rfl := Option.some.inj (hregion.symm.trans hr)
    exact hfinite.2

/-- Three configurations are accepted and cannot be built: the limit is infinite, or it is finite, but so many miles
that they are infinitely many meters, or the radius is infinite. -/
theorem Config.not_builds :
    (∃ c, Config.read [] (Config.sample [("value", .float (1 / 0))] []) = .valid c ∧ ¬ c.Builds) ∧
      (isFinite (.ofBits 0x7FE0000000000000) = true ∧
        ∃ c, Config.read [] (Config.sample [("value", .float (.ofBits 0x7FE0000000000000)), ("unit", .str "miles")] []) =
          .valid c ∧ ¬ c.Builds) ∧
      ∃ c, Config.read [] (Config.sample [("value", .int 1)]
        [("region", .obj [("lat", .int 1), ("lon", .int 2), ("radius_m", .float (1 / 0))])]) = .valid c ∧
          ¬ c.Builds := by
  have hlimit : ∀ (c : Config), isLength (c.check.limit.value * c.check.limit.unit.inMeters) = false → ¬ c.Builds := by
    intro c hnone hbuilds
    obtain ⟨d, hd⟩ := hbuilds.limit
    cases (Distance.ofUnits_error hnone).symm.trans hd
  have hradius : ∀ (c : Config) r, c.runs.region = some r → isLength (r.radius * LengthUnit.meters.inMeters) = false →
      ¬ c.Builds := by
    intro c r hr hnone hbuilds
    obtain ⟨d, hd⟩ := (hbuilds.region r hr).2
    cases (Distance.ofUnits_error hnone).symm.trans hd
  exact ⟨⟨_, rfl, hlimit _ (by decide +kernel)⟩, ⟨by decide +kernel, _, rfl, hlimit _ (by decide +kernel)⟩,
    ⟨_, rfl, hradius _ _ rfl (by decide +kernel)⟩⟩

end RoadNames
