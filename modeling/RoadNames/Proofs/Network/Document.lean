import RoadNames.Proofs.Network.Item
set_option autoImplicit false

namespace RoadNames.Document

open Json

def addItems (format : Format) : Nat → List Json → Network → Except LoadError Network
  | _, [], g => .ok g
  | k, item :: rest, g => do addItems format (k + 1) rest (← addItem format k item g)

/-- One of the items overflows, and those before it can be added. -/
def ComesToOverflow (format : Format) (k : Nat) (items : List Json) (g : Network) : Prop :=
  ∃ before item after h, items = before ++ item :: after ∧ addItems format k before g = .ok h ∧
    Overflows format (k + before.length) item

theorem comesToOverflow_cons {format : Format} {k : Nat} {item : Json} {rest : List Json} {g : Network} :
    ComesToOverflow format k (item :: rest) g ↔
      Overflows format k item ∨ ∃ h, addItem format k item g = .ok h ∧ ComesToOverflow format (k + 1) rest h := by
  constructor
  · rintro ⟨before, other, after, h, hitems, hbefore, hover⟩
    cases before with
    | nil =>
      obtain ⟨rfl, _⟩ : item = other ∧ rest = after := by simpa using hitems
      exact .inl hover
    | cons first before =>
      obtain ⟨rfl, rfl⟩ : item = first ∧ rest = before ++ other :: after := by simpa using hitems
      cases hadd : addItem format k item g with
      | error e => simp [addItems, hadd] at hbefore
      | ok g' =>
        refine .inr ⟨g', rfl, before, other, after, h, rfl, by simpa [addItems, hadd] using hbefore, ?_⟩
        simpa [Nat.add_assoc, Nat.add_comm 1] using hover
  · rintro (hover | ⟨g', hadd, before, other, after, h, rfl, hbefore, hover⟩)
    · exact ⟨[], item, rest, g, rfl, rfl, hover⟩
    · refine ⟨item :: before, other, after, h, rfl, by simp [addItems, hadd, hbefore], ?_⟩
      simpa [Nat.add_assoc, Nat.add_comm 1] using hover

theorem foldItems_of_overflow {format : Format} {k : Nat} {items : List Json} {g : Network}
    (h : ComesToOverflow format k items g) :
    (Reading.foldItems (readItem format) k items g).outcome = .error .overflow := by
  induction items generalizing k g with
  | nil =>
    obtain ⟨before, item, after, _, hitems, _⟩ := h
    simp at hitems
  | cons item rest ih =>
    rw [Reading.foldItems, Reading.outcome_bind]
    by_cases hover : Overflows format k item
    · rw [readItem_of_overflows hover, Reading.error_bind]
    · -- Until then, reading goes on with the network that is described.
      obtain ⟨g', hadd, hrest⟩ := (comesToOverflow_cons.mp h).resolve_left hover
      rw [(readItem_of_not_overflows hover g).1, hadd, Reading.ok_bind, ih hrest]

theorem foldItems_of_no_overflow {format : Format} {k : Nat} {items : List Json} {g : Network}
    (h : ¬ ComesToOverflow format k items g) :
    (Reading.foldItems (readItem format) k items g).outcome = addItems format k items g ∧
      (Reading.foldItems (readItem format) k items g).Proper := by
  induction items generalizing k g with
  | nil => exact ⟨rfl, .inl ⟨g, rfl⟩⟩
  | cons item rest ih =>
    rw [comesToOverflow_cons, not_or] at h
    obtain ⟨hread, hproper⟩ := readItem_of_not_overflows h.1 g
    unfold Reading.Proper at *
    rw [Reading.foldItems, Reading.outcome_bind, addItems, ← hread]
    rcases hproper with ⟨g', hg'⟩ | ⟨fault, hfault⟩
    · rw [hg', Reading.ok_bind, Reading.ok_bind]
      exact ih fun hrest => h.2 ⟨g', hread ▸ hg', hrest⟩
    · -- What is wrong with the item ends the description as well.
      rw [hfault]
      exact ⟨rfl, .inr ⟨fault, rfl⟩⟩

def IsScalar : Json → Prop
  | .bool _ | .int _ | .float _ => True
  | _ => False

/-- The list of features is a truth value or a number, and neither false nor zero. -/
def HasScalarFeatures (format : Format) (document : Json) : Prop :=
  format = .geojson ∧ document.field? "type" = some (str "FeatureCollection") ∧
    ∃ v, document.field? "features" = some v ∧ v.isTrue = true ∧ IsScalar v

def itemsOf (format : Format) (document : Json) : Except LoadError (List Json) :=
  match format with
  | .geojson =>
    match document.field? "type" with
    | some (str "FeatureCollection") => (featuresOf (document.field? "features")).outcome
    | _ => .error (.data .notFeatureCollection)
  | .json =>
    match document.field? "segments" with
    | some (arr items) => .ok items
    | _ => .error (.data .noSegmentList)

theorem featuresOf_cases (value : Option Json) :
    ((∃ v, value = some v ∧ v.isTrue = true ∧ IsScalar v) ∧
        (featuresOf value).outcome = .error .noSequence) ∨
      (¬ (∃ v, value = some v ∧ v.isTrue = true ∧ IsScalar v) ∧
        ∃ items, (featuresOf value).outcome = .ok items) := by
  cases value with
  | none => exact .inr ⟨by simp, [], rfl⟩
  | some v =>
    cases h : v.isTrue with
    | false => exact .inr ⟨by simp [h], [], by simp [featuresOf, h]⟩
    | true =>
      cases v with
      | null => cases h
      | _ => simp [featuresOf, IsScalar, h]

theorem itemsOf_cases (format : Format) (document : Json) :
    (HasScalarFeatures format document ∧ itemsOf format document = .error .noSequence) ∨
      (¬ HasScalarFeatures format document ∧
        ((∃ fault, itemsOf format document = .error (.data fault)) ∨
          ∃ items, itemsOf format document = .ok items)) := by
  unfold HasScalarFeatures itemsOf
  cases format with
  | json =>
    refine .inr ⟨by simp, ?_⟩
    dsimp only
    split
    case h_1 items _ => exact .inr ⟨items, rfl⟩
    case h_2 => exact .inl ⟨_, rfl⟩
  | geojson =>
    dsimp only
    split
    case h_1 htype =>
      rcases featuresOf_cases (document.field? "features") with ⟨hv, hitems⟩ | ⟨hv, hitems⟩
      · exact .inl ⟨⟨rfl, htype, hv⟩, hitems⟩
      · exact .inr ⟨fun h => hv h.2.2, .inr hitems⟩
    case h_2 htype => exact .inr ⟨fun h => htype h.2.1, .inl ⟨_, rfl⟩⟩

/-- The network that a document describes. Its coordinates have no part in what segments there are. -/
def described (format : Format) (document : Json) : Except LoadError Network := do
  addItems format 0 (← itemsOf format document) (.empty Network.defaultDigits)

theorem outcome_readNamed (format : Format) (document : Json) :
    (Network.readNamed (.str format.name) document).outcome = (do
      let items ← itemsOf format document
      (Reading.foldItems (readItem format) 0 items (.empty Network.defaultDigits)).outcome) := by
  cases format with
  | geojson =>
    show (readFeatures document).outcome = _
    unfold readFeatures itemsOf
    dsimp only
    split
    case h_1 => simp_all [readItem]
    case h_2 => simp
  | json =>
    show (readSegments document).outcome = _
    unfold readSegments itemsOf
    dsimp only
    split
    case h_1 => simp_all [readItem]
    case h_2 => simp

theorem outcome_readNamed_of_overflow (format : Format) {document : Json} {items : List Json}
    (hitems : itemsOf format document = .ok items)
    (h : ComesToOverflow format 0 items (.empty Network.defaultDigits)) :
    (Network.readNamed (.str format.name) document).outcome = .error .overflow := by
  rw [outcome_readNamed, hitems, Reading.ok_bind, foldItems_of_overflow h]

/-- Reading comes to the network that is described, or to what is wrong with the data, just if the
features can be gone through and none of the items that it comes to overflows. -/
theorem readNamed_proper_iff (format : Format) (document : Json) :
    ((Network.readNamed (.str format.name) document).Proper ∧
        (Network.readNamed (.str format.name) document).outcome = described format document) ↔
      ¬ HasScalarFeatures format document ∧
        ∀ items, itemsOf format document = .ok items →
          ¬ ComesToOverflow format 0 items (.empty Network.defaultDigits) := by
  unfold Reading.Proper described
  rcases itemsOf_cases format document with ⟨hscalar, hitems⟩ | ⟨hcounts, ⟨fault, hitems⟩ | ⟨items, hitems⟩⟩
  · simp [outcome_readNamed, hitems, hscalar]
  · simp [outcome_readNamed, hitems, hcounts]
  · simp only [hitems, Reading.ok_bind, hcounts, not_false_eq_true, true_and, Except.ok.injEq, forall_eq']
    constructor
    · rintro ⟨hproper, _⟩ hover
      simp [outcome_readNamed_of_overflow format hitems hover] at hproper
    · intro hover
      obtain ⟨hdescribed, hproper⟩ := foldItems_of_no_overflow hover
      rw [outcome_readNamed, hitems, Reading.ok_bind]
      exact ⟨hproper, hdescribed⟩

def infiniteId : Json := obj [("segments", arr [obj [("id", float (1 / 0))]])]

def farNorth : Json := int (.ofNat (.pow 10 400))

def farStart : Json :=
  obj [("segments", arr [obj [("id", int 1), ("start", arr [farNorth, int 0])], obj [("id", int 2)]])]

def fiveFeatures : Json := obj [("type", str "FeatureCollection"), ("features", int 5)]

/-- Three readings that are cut short. In the second, the start of one segment costs both segments, which are
described without it. -/
theorem readNamed_not_proper :
    ¬ (Network.readNamed (.str "json") infiniteId).Proper ∧
      ¬ (Network.readNamed (.str "json") farStart).Proper ∧
      (described .json farStart).toOption.map Network.ids = some [1, 2] ∧
      ¬ (Network.readNamed (.str "geojson") fiveFeatures).Proper := by
  have hinfinite : (float (1 / 0)).IsInfinity := by constructor <;> decide +kernel
  have hbeyond : farNorth.BeyondDoubles := by
    show Decimal.isFinite _ = false
    decide +kernel
  have hid : (Network.readNamed (.str "json") infiniteId).outcome = .error .overflow :=
    outcome_readNamed_of_overflow .json rfl
      (comesToOverflow_cons.mpr (.inl (.inl ⟨_, rfl, hinfinite⟩)))
  have hstart : (Network.readNamed (.str "json") farStart).outcome = .error .overflow :=
    outcome_readNamed_of_overflow .json rfl
      (comesToOverflow_cons.mpr (.inl (.inr ⟨_, _, rfl, rfl, .inl ⟨_, _, rfl, .inl hbeyond⟩⟩)))
  have hfeatures : (Network.readNamed (.str "geojson") fiveFeatures).outcome = .error .noSequence := rfl
  unfold Reading.Proper
  rw [hid, hstart, hfeatures]
  exact ⟨by simp, by simp, by decide +kernel, by simp⟩

end RoadNames.Document
