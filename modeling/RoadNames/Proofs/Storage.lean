import Mathlib.Data.Finset.Card
import RoadNames.Storage
set_option autoImplicit false

/-!
Which networks a library has at hand. It holds the networks of the keys that were loaded last, each as it
was last returned, and reads any other anew; nothing else that happens to it or to the files matters.
-/

namespace RoadNames.Storage

abbrev Loaded := CacheKey × Handle

/-- Some loads without those of a key before its last one, the latest first. -/
def ranked : List Loaded → List Loaded
  | [] => []
  | e :: earlier => e :: (ranked earlier).filter fun d => d.1 ≠ e.1

/-- The last load with this key returned this network, and at most seven other keys were loaded after it. -/
def Recent (loads : List Loaded) (key : CacheKey) (h : Handle) : Prop :=
  ∃ since earlier, loads = since ++ (key, h) :: earlier ∧ key ∉ since.map (·.1) ∧
    (since.map (·.1)).toFinset.card ≤ 7

theorem Recent.mem {loads : List Loaded} {key : CacheKey} {h : Handle} (hrecent : Recent loads key h) :
    (key, h) ∈ loads := by
  obtain ⟨since, earlier, rfl, _⟩ := hrecent
  exact List.mem_append_right since List.mem_cons_self

section Ranking

theorem mem_keys_ranked (loads : List Loaded) (key : CacheKey) :
    key ∈ (ranked loads).map (·.1) ↔ key ∈ loads.map (·.1) := by
  induction loads with
  | nil => rfl
  | cons e earlier ih =>
    have hfilter : key ∈ ((ranked earlier).filter fun d => d.1 ≠ e.1).map (·.1) ↔
        key ∈ (ranked earlier).map (·.1) ∧ key ≠ e.1 := by
      simp only [List.mem_map, List.mem_filter, decide_eq_true_eq]
      constructor
      · rintro ⟨d, ⟨hd, hne⟩, rfl⟩
        exact ⟨⟨d, hd, rfl⟩, hne⟩
      · rintro ⟨⟨d, hd, rfl⟩, hne⟩
        exact ⟨d, ⟨hd, hne⟩, rfl⟩
    rw [ranked, List.map_cons, List.map_cons, List.mem_cons, List.mem_cons, hfilter, ih]
    tauto

theorem nodup_keys_ranked (loads : List Loaded) : ((ranked loads).map (·.1)).Nodup := by
  induction loads with
  | nil => exact .nil
  | cons e earlier ih =>
    refine List.nodup_cons.mpr ⟨fun hmem => ?_, ih.sublist (List.filter_sublist.map _)⟩
    obtain ⟨d, hd, he⟩ := List.mem_map.mp hmem
    exact of_decide_eq_true (List.mem_filter.mp hd).2 he

theorem length_ranked (loads : List Loaded) :
    (ranked loads).length = (loads.map (·.1)).toFinset.card := by
  have hkeys : ((ranked loads).map (·.1)).toFinset = (loads.map (·.1)).toFinset := by
    ext key
    rw [List.mem_toFinset, List.mem_toFinset, mem_keys_ranked]
  rw [← hkeys, List.toFinset_card_of_nodup (nodup_keys_ranked loads), List.length_map]

theorem ranked_append_cons {since earlier : List Loaded} {e : Loaded} (h : e.1 ∉ since.map (·.1)) :
    ∃ rest, ranked (since ++ e :: earlier) = ranked since ++ e :: rest := by
  induction since with
  | nil => exact ⟨_, rfl⟩
  | cons d since ih =>
    rw [List.map_cons, List.mem_cons, not_or] at h
    obtain ⟨rest, hrest⟩ := ih h.2
    refine ⟨rest.filter fun c => c.1 ≠ d.1, ?_⟩
    rw [List.cons_append, ranked, hrest, List.filter_append, List.filter_cons_of_pos (by simpa using h.1)]
    rfl

theorem find?_take_ranked {since earlier : List Loaded} {e : Loaded} (h : e.1 ∉ since.map (·.1)) (n : Nat) :
    ((ranked (since ++ e :: earlier)).take n).find? (fun d => d.1 = e.1) =
      if (since.map (·.1)).toFinset.card < n then some e else none := by
  obtain ⟨rest, hrest⟩ := @ranked_append_cons since earlier e h
  have hsince : ((ranked since).take n).find? (fun d => d.1 = e.1) = none := by
    refine List.find?_eq_none.mpr fun d hd => ?_
    have hkey := List.mem_map_of_mem (f := (·.1)) (List.mem_of_mem_take hd)
    exact fun heq => h ((mem_keys_ranked since e.1).mp (of_decide_eq_true heq ▸ hkey))
  rw [hrest, ← length_ranked, List.take_append, List.find?_append, hsince, Option.none_or]
  split
  case isTrue hlt =>
    obtain ⟨m, hm⟩ := Nat.exists_eq_succ_of_ne_zero (Nat.sub_ne_zero_of_lt hlt)
    simp [hm]
  case isFalse hge =>
    have hzero : n - (ranked since).length = 0 := by omega
    simp [hzero]

theorem exists_last_load {loads : List Loaded} {key : CacheKey} (h : key ∈ loads.map (·.1)) :
    ∃ since e earlier, loads = since ++ e :: earlier ∧ e.1 = key ∧ key ∉ since.map (·.1) := by
  obtain ⟨before, later, hkeys, hnew⟩ := List.eq_append_cons_of_mem h
  obtain ⟨since, rest, rfl, rfl, hrest⟩ := List.map_eq_append_iff.mp hkeys
  obtain ⟨e, earlier, rfl, he, _⟩ := List.map_eq_cons_iff.mp hrest
  exact ⟨since, e, earlier, rfl, he, hnew⟩

/-- An entry that moves to the front leaves room for one more behind it. -/
theorem take_filter_take {entries : List Loaded} (h : (entries.map (·.1)).Nodup) (key : CacheKey) (n : Nat) :
    ((entries.take (n + 1)).filter fun d => d.1 ≠ key).take n =
      (entries.filter fun d => d.1 ≠ key).take n := by
  induction entries generalizing n with
  | nil => simp
  | cons e entries ih =>
    obtain ⟨hnew, hrest⟩ := List.nodup_cons.mp h
    by_cases he : e.1 = key
    · have hother : ∀ d ∈ entries, decide (d.1 ≠ key) = true := fun d hd =>
        decide_eq_true fun hd' => hnew (List.mem_map.mpr ⟨d, hd, hd'.trans he.symm⟩)
      have htake : ∀ d ∈ entries.take n, decide (d.1 ≠ key) = true := fun d hd =>
        hother d (List.mem_of_mem_take hd)
      rw [List.take_succ_cons, List.filter_cons_of_neg (by simp [he]), List.filter_cons_of_neg (by simp [he]),
        List.filter_eq_self.mpr hother, List.filter_eq_self.mpr htake, List.take_take, Nat.min_self]
    · cases n with
      | zero => simp
      | succ n =>
        rw [List.take_succ_cons, List.filter_cons_of_pos (by simpa using he),
          List.filter_cons_of_pos (by simpa using he), List.take_succ_cons, List.take_succ_cons, ih hrest n]

end Ranking

inductive Action where
  | write (file : String) (bytes : ByteArray)
  | load (file : String) (format : Json)

/-- A library in use, with the loads so far that succeeded, the latest first. -/
structure Session where
  library : Library
  loads : List Loaded

namespace Session

def ofFiles (files : Files) : Session := ⟨.ofFiles files, []⟩

def loaded (file : String) (format : Json) (outcome : Except AccessError Handle) : List Loaded :=
  match format.lookUp Format.ofName?, outcome with
  | .ok f, .ok h => [(⟨file, f⟩, h)]
  | _, _ => []

def perform (s : Session) : Action → Session
  | .write file bytes => { s with library := { s.library with files := s.library.files.write file bytes } }
  | .load file format =>
    let access := s.library.loadNamed file format
    ⟨access.library, loaded file format access.outcome ++ s.loads⟩

def after (files : Files) (history : List Action) : Session := history.foldl perform (ofFiles files)

end Session

def Files.written (files : Files) : Action → Files
  | .write file bytes => files.write file bytes
  | .load _ _ => files

def Files.network (files : Files) (key : CacheKey) : Except AccessError Network :=
  match files.read key.file with
  | .error e => .error (.file e)
  | .ok bytes =>
    match Library.readDocument key.file bytes with
    | .error e => .error (.load e)
    | .ok document => (Network.read key.format document).outcome.mapError .load

namespace Library

theorem readNetwork_cases (l : Library) (key : CacheKey) :
    (∃ warnings e, l.files.network key = .error e ∧ l.readNetwork key = ⟨l, warnings, .error e⟩) ∨
    (∃ warnings g, l.files.network key = .ok g ∧
      l.readNetwork key = ⟨(l.enter g).2.keep key (l.enter g).1, warnings, .ok (l.enter g).1⟩) := by
  unfold Files.network readNetwork
  cases l.files.read key.file with
  | error e => exact .inl ⟨_, _, rfl, rfl⟩
  | ok bytes =>
    cases hdocument : readDocument key.file bytes with
    | error e => refine .inl ⟨[], .load e, ?_, ?_⟩ <;> simp [hdocument, fail]
    | ok document =>
      cases hread : Network.read key.format document with
      | mk warnings outcome =>
        cases outcome with
        | error e => refine .inl ⟨warnings, .load e, ?_, ?_⟩ <;> simp [hdocument, hread, Except.mapError]
        | ok g => refine .inr ⟨warnings, g, ?_, ?_⟩ <;> simp [hdocument, hread, Except.mapError]

theorem outcome_readNetwork (l : Library) (key : CacheKey) :
    (l.readNetwork key).outcome.map Handle.network = l.files.network key := by
  rcases l.readNetwork_cases key with ⟨warnings, e, hnetwork, hread⟩ | ⟨warnings, g, hnetwork, hread⟩
  · rw [hread, hnetwork, Except.map]
  · rw [hread, hnetwork, Except.map]
    rfl

theorem load_of_kept {l : Library} {file : String} {format : Format} {h : Handle}
    (hkept : l.kept? ⟨file, format⟩ = some h) :
    l.load file format = ⟨l.keep ⟨file, format⟩ h, [], .ok h⟩ := by simp [load, hkept]

theorem load_of_not_kept {l : Library} {file : String} {format : Format}
    (hkept : l.kept? ⟨file, format⟩ = none) : l.load file format = l.readNetwork ⟨file, format⟩ := by
  simp [load, hkept]

theorem loadNamed_name (l : Library) (file : String) (format : Format) :
    l.loadNamed file (.str format.name) = l.load file format := by
  cases format <;> rfl

theorem loadNamed_of_unknown {l : Library} {file : String} {format : Json} {e : LookupError}
    (h : format.lookUp Format.ofName? = .error e) :
    l.loadNamed file format = l.fail (.load (.badFormat e)) := by simp [loadNamed, h]

theorem loadNamed_of_known {l : Library} {file : String} {format : Json} {f : Format}
    (h : format.lookUp Format.ofName? = .ok f) : l.loadNamed file format = l.load file f := by
  simp [loadNamed, h]

/-- A load fails and leaves all as it was, or returns what is kept, or reads what is then kept. -/
theorem loadNamed_cases (l : Library) (file : String) (format : Json) :
    (∃ warnings e, l.loadNamed file format = ⟨l, warnings, .error e⟩) ∨
    (∃ f h, format.lookUp Format.ofName? = .ok f ∧ l.kept? ⟨file, f⟩ = some h ∧
      l.loadNamed file format = ⟨l.keep ⟨file, f⟩ h, [], .ok h⟩) ∨
    (∃ f g warnings, format.lookUp Format.ofName? = .ok f ∧ l.kept? ⟨file, f⟩ = none ∧
      l.loadNamed file format =
        ⟨(l.enter g).2.keep ⟨file, f⟩ (l.enter g).1, warnings, .ok (l.enter g).1⟩) := by
  cases hformat : format.lookUp Format.ofName? with
  | error e => exact .inl ⟨[], _, loadNamed_of_unknown hformat⟩
  | ok f =>
    rw [loadNamed_of_known hformat]
    cases hkept : l.kept? ⟨file, f⟩ with
    | some h => exact .inr (.inl ⟨f, h, rfl, hkept, load_of_kept hkept⟩)
    | none =>
      rw [load_of_not_kept hkept]
      rcases l.readNetwork_cases ⟨file, f⟩ with ⟨warnings, e, _, hread⟩ | ⟨warnings, g, _, hread⟩
      · exact .inl ⟨warnings, e, hread⟩
      · exact .inr (.inr ⟨f, g, warnings, rfl, hkept, hread⟩)

theorem exists_format_of_ok {l : Library} {file : String} {format : Json} {h : Handle}
    (hok : (l.loadNamed file format).outcome = .ok h) : ∃ f : Format, format = .str f.name := by
  rcases l.loadNamed_cases file format with
    ⟨warnings, e, hfail⟩ | ⟨f, _, hformat, _⟩ | ⟨f, _, _, hformat, _⟩
  · rw [hfail] at hok
    cases hok
  · exact ⟨f, Format.eq_name_of_lookUp hformat⟩
  · exact ⟨f, Format.eq_name_of_lookUp hformat⟩

end Library

namespace Session

/-- A library keeps the last eight keys that were loaded, each with what its last load returned, and numbers
new networks above all that it has returned. -/
structure Sound (s : Session) : Prop where
  recent : s.library.recent = (ranked s.loads).take Library.capacity
  numbered : ∀ e ∈ s.loads, e.2.number < s.library.next

variable {s : Session} {key : CacheKey} {h : Handle}

theorem Sound.kept?_of_last_load (hs : s.Sound) {since earlier : List Loaded} {e : Loaded}
    (hloads : s.loads = since ++ e :: earlier) (hnew : e.1 ∉ since.map (·.1)) :
    s.library.kept? e.1 = if (since.map (·.1)).toFinset.card < Library.capacity then some e.2 else none := by
  rw [Library.kept?, hs.recent, hloads, find?_take_ranked hnew]
  split <;> rfl

theorem Sound.kept?_eq_some_iff (hs : s.Sound) : s.library.kept? key = some h ↔ Recent s.loads key h := by
  constructor
  · intro hkept
    obtain ⟨d, hd, _⟩ := Option.map_eq_some_iff.mp hkept
    have hkey : key ∈ s.loads.map (·.1) := by
      rw [hs.recent] at hd
      have hd' : d.1 = key := by simpa using List.find?_some hd
      have hmem := List.mem_map_of_mem (f := (·.1)) (List.mem_of_mem_take (List.mem_of_find?_eq_some hd))
      exact hd' ▸ (mem_keys_ranked s.loads d.1).mp hmem
    obtain ⟨since, e, earlier, hloads, rfl, hnew⟩ := exists_last_load hkey
    rw [hs.kept?_of_last_load hloads hnew] at hkept
    split at hkept
    case isTrue hfew =>
      obtain rfl := Option.some.inj hkept
      exact ⟨since, earlier, hloads, hnew, Nat.le_of_lt_succ hfew⟩
    case isFalse => cases hkept
  · rintro ⟨since, earlier, hloads, hnew, hfew⟩
    have hlt : (since.map (·.1)).toFinset.card < Library.capacity := Nat.lt_succ_of_le hfew
    rw [hs.kept?_of_last_load hloads hnew, if_pos hlt]

theorem Sound.keep {l : Library} {loads : List Loaded} (hs : Sound ⟨l, loads⟩) (hnumber : h.number < l.next) :
    Sound ⟨l.keep key h, (key, h) :: loads⟩ := by
  constructor
  · show ((key, h) :: l.recent.filter fun e => e.1 ≠ key).take 8 = _
    rw [hs.recent, ranked, Library.capacity, List.take_succ_cons, List.take_succ_cons,
      take_filter_take (nodup_keys_ranked loads)]
  · intro e he
    rcases List.mem_cons.mp he with rfl | he
    · exact hnumber
    · exact hs.numbered e he

theorem perform_of_error {file : String} {format : Json} {warnings : List Warning} {e : AccessError}
    (hfail : s.library.loadNamed file format = ⟨s.library, warnings, .error e⟩) :
    s.perform (.load file format) = s := by
  cases hformat : format.lookUp Format.ofName? <;> simp [perform, loaded, hfail, hformat]

theorem perform_of_ok {file : String} {format : Json} {f : Format} {l : Library} {warnings : List Warning}
    (hformat : format.lookUp Format.ofName? = .ok f)
    (hok : s.library.loadNamed file format = ⟨l, warnings, .ok h⟩) :
    s.perform (.load file format) = ⟨l, (⟨file, f⟩, h) :: s.loads⟩ := by
  simp [perform, loaded, hformat, hok]

theorem perform_of_outcome_error {file : String} {format : Json} {e : AccessError}
    (hfail : (s.library.loadNamed file format).outcome = .error e) : s.perform (.load file format) = s := by
  rcases s.library.loadNamed_cases file format with
    ⟨warnings, e', heq⟩ | ⟨f, h, _, _, heq⟩ | ⟨f, g, warnings, _, _, heq⟩
  · exact perform_of_error heq
  · rw [heq] at hfail
    cases hfail
  · rw [heq] at hfail
    cases hfail

theorem Sound.withFiles (hs : s.Sound) (present : Files) :
    Sound ⟨{ s.library with files := present }, s.loads⟩ := ⟨hs.recent, hs.numbered⟩

theorem Sound.perform (hs : s.Sound) (action : Action) : (s.perform action).Sound := by
  cases action with
  | write file bytes => exact hs.withFiles _
  | load file format =>
    rcases s.library.loadNamed_cases file format with
      ⟨warnings, e, hfail⟩ | ⟨f, h, hformat, hkept, hok⟩ | ⟨f, g, warnings, hformat, _, hok⟩
    · rwa [perform_of_error hfail]
    · have hmem := (hs.kept?_eq_some_iff.mp hkept).mem
      rw [perform_of_ok hformat hok]
      exact hs.keep (hs.numbered _ hmem)
    · have hentered : Sound ⟨(s.library.enter g).2, s.loads⟩ :=
        ⟨hs.recent, fun e he => Nat.lt_succ_of_lt (hs.numbered e he)⟩
      rw [perform_of_ok hformat hok]
      exact hentered.keep (Nat.lt_succ_self _)

theorem Sound.foldl (hs : s.Sound) (history : List Action) : (history.foldl Session.perform s).Sound := by
  induction history generalizing s with
  | nil => exact hs
  | cons action history ih => exact ih (hs.perform action)

theorem sound_after (files : Files) (history : List Action) : (after files history).Sound :=
  Sound.foldl ⟨rfl, fun e he => by cases he⟩ history

theorem files_perform (s : Session) (action : Action) :
    (s.perform action).library.files = s.library.files.written action := by
  cases action with
  | write file bytes => rfl
  | load file format =>
    rcases s.library.loadNamed_cases file format with
      ⟨warnings, e, hfail⟩ | ⟨f, h, hformat, _, hok⟩ | ⟨f, g, warnings, hformat, _, hok⟩
    · rw [perform_of_error hfail]; rfl
    · rw [perform_of_ok hformat hok]; rfl
    · rw [perform_of_ok hformat hok]; rfl

theorem files_foldl (s : Session) (history : List Action) :
    (history.foldl perform s).library.files = history.foldl Files.written s.library.files := by
  induction history generalizing s with
  | nil => rfl
  | cons action history ih => rw [List.foldl_cons, List.foldl_cons, ih, files_perform]

theorem files_after (files : Files) (history : List Action) :
    (after files history).library.files = history.foldl Files.written files :=
  files_foldl (ofFiles files) history

theorem Sound.number_ne_of_read (hs : s.Sound) (hok : (s.library.readNetwork key).outcome = .ok h) :
    ∀ e ∈ s.loads, e.2.number ≠ h.number := by
  intro e he
  rcases s.library.readNetwork_cases key with ⟨warnings, e', _, hread⟩ | ⟨warnings, g, _, hread⟩
  · rw [hread] at hok
    cases hok
  · rw [hread] at hok
    cases hok
    exact (hs.numbered e he).ne

section Load

variable {file : String} {format : Format}

theorem Sound.load_of_recent (hs : s.Sound) (hrecent : Recent s.loads ⟨file, format⟩ h) :
    (s.library.loadNamed file (.str format.name)).outcome = .ok h := by
  rw [Library.loadNamed_name, Library.load_of_kept (hs.kept?_eq_some_iff.mpr hrecent)]

theorem Sound.loadNamed_of_not_recent (hs : s.Sound) (hnone : ∀ h, ¬ Recent s.loads ⟨file, format⟩ h) :
    s.library.loadNamed file (.str format.name) = s.library.readNetwork ⟨file, format⟩ := by
  have hkept : s.library.kept? ⟨file, format⟩ = none :=
    Option.eq_none_iff_forall_ne_some.mpr fun h => mt hs.kept?_eq_some_iff.mp (hnone h)
  rw [Library.loadNamed_name, Library.load_of_not_kept hkept]

end Load

end Session

theorem Recent.of_keys {loads others : List Loaded} (hkeys : loads.map (·.1) = others.map (·.1))
    {key : CacheKey} {h : Handle} (hrecent : Recent loads key h) : ∃ h, Recent others key h := by
  obtain ⟨since, earlier, rfl, hnew, hfew⟩ := hrecent
  rw [List.map_append, List.map_cons] at hkeys
  obtain ⟨since', rest, rfl, hsince, hrest⟩ := List.map_eq_append_iff.mp hkeys.symm
  obtain ⟨e, earlier', rfl, rfl, _⟩ := List.map_eq_cons_iff.mp hrest
  rw [← hsince] at hnew hfew
  exact ⟨e.2, since', earlier', rfl, hnew, hfew⟩

/-- A load returns the very network that the last load with its key returned, whatever is in the files by
then, if at most seven other keys were loaded since. Otherwise the file is read as it is, and a network
in it is a new one. A load that fails, as all do that give no format, changes nothing; and the keys that
were loaded, in their order, tell what is kept, whatever was written or failed between them. -/
theorem load_reuses_recent {files : Files} {history : List Action} {s : Session}
    (hs : s = Session.after files history) (file : String) (format : Format) :
    (∀ h, Recent s.loads ⟨file, format⟩ h → ∀ present : Files,
      ({ s.library with files := present }.loadNamed file (.str format.name)).outcome = .ok h) ∧
    ((∀ h, ¬ Recent s.loads ⟨file, format⟩ h) →
      (s.library.loadNamed file (.str format.name)).outcome.map Handle.network =
          (history.foldl Files.written files).network ⟨file, format⟩ ∧
        ∀ h, (s.library.loadNamed file (.str format.name)).outcome = .ok h →
          ∀ e ∈ s.loads, e.2.number ≠ h.number) ∧
    (∀ file format e, (s.library.loadNamed file format).outcome = .error e →
      s.perform (.load file format) = s) ∧
    (∀ file format h, (s.library.loadNamed file format).outcome = .ok h → ∃ f : Format, format = .str f.name) ∧
    (∀ others otherHistory,
      (Session.after others otherHistory).loads.map (·.1) = s.loads.map (·.1) →
        (((Session.after others otherHistory).library.kept? ⟨file, format⟩).isSome ↔
          (s.library.kept? ⟨file, format⟩).isSome)) := by
  subst hs
  have hsound := Session.sound_after files history
  refine ⟨fun h hrecent present => (hsound.withFiles present).load_of_recent hrecent, fun hnone => ?_,
    fun _ _ _ => Session.perform_of_outcome_error, fun _ _ _ => Library.exists_format_of_ok,
    fun others other hkeys => ?_⟩
  · rw [hsound.loadNamed_of_not_recent hnone, Library.outcome_readNetwork, Session.files_after]
    exact ⟨rfl, fun h => hsound.number_ne_of_read⟩
  · have hsound' := Session.sound_after others other
    simp only [Option.isSome_iff_exists, hsound.kept?_eq_some_iff, hsound'.kept?_eq_some_iff]
    exact ⟨fun ⟨_, h⟩ => h.of_keys hkeys, fun ⟨_, h⟩ => h.of_keys hkeys.symm⟩

def noSegments : ByteArray := "\x7b\"segments\": []\x7d".toUTF8

def visits (n : Nat) : List Action :=
  (List.range n).flatMap fun i => [.write (toString i) noSegments, .load (toString i) (.str "json")]

example : ((Session.after .empty (visits 8)).library.kept? ⟨"0", .json⟩).isSome = true ∧
    ((Session.after .empty (visits 9)).library.kept? ⟨"0", .json⟩).isSome = false := by decide +kernel

def spoiltFile : List Action :=
  [.load "roads" (.str "json"), .write "roads" noSegments, .load "roads" (.str "json"),
    .write "roads" "?".toUTF8, .load "roads" (.str "geojson"), .load "roads" (.str "text")]

theorem keys_spoiltFile : (Session.after .empty spoiltFile).loads.map (·.1) = [⟨"roads", .json⟩] := by
  decide +kernel

theorem isOk_network_spoiltFile :
    ((spoiltFile.foldl Files.written .empty).network ⟨"roads", .json⟩).isOk = false := by decide +kernel

theorem load_reuses_recent_spoiltFile :
    ∃ s h, s = Session.after .empty spoiltFile ∧ Recent s.loads ⟨"roads", .json⟩ h ∧
      (s.library.loadNamed "roads" (.str "json")).outcome = .ok h ∧
      ((spoiltFile.foldl Files.written .empty).network ⟨"roads", .json⟩).isOk = false := by
  obtain ⟨s, hs⟩ : ∃ s, s = Session.after .empty spoiltFile := ⟨_, rfl⟩
  have hkeys : s.loads.map (·.1) = [⟨"roads", .json⟩] := hs ▸ keys_spoiltFile
  obtain ⟨e, earlier, hloads, hkey, _⟩ := List.map_eq_cons_iff.mp hkeys
  have hrecent : Recent s.loads ⟨"roads", .json⟩ e.2 :=
    ⟨[], earlier, by rw [hloads, ← hkey]; rfl, by simp, by simp⟩
  have hreuse := (load_reuses_recent hs "roads" .json).1 e.2 hrecent s.library.files
  exact ⟨s, e.2, hs, hrecent, hreuse, isOk_network_spoiltFile⟩

end RoadNames.Storage
