import RoadNames.Network.Document
import RoadNames.Proofs.Json.Coercion
set_option autoImplicit false

namespace RoadNames

namespace Reading

variable {α β : Type}

@[simp] theorem ok_bind {ε : Type} (a : α) (next : α → Except ε β) : (.ok a >>= next) = next a := rfl

@[simp] theorem error_bind {ε : Type} (e : ε) (next : α → Except ε β) :
    (.error e >>= next) = .error e := rfl

@[simp] theorem outcome_pure (a : α) : (pure a : Reading α).outcome = .ok a := rfl

@[simp] theorem outcome_fail (e : LoadError) : (fail e : Reading α).outcome = .error e := rfl

@[simp] theorem outcome_warn (w : Warning) : (warn w).outcome = .ok () := rfl

@[simp] theorem outcome_bind (r : Reading α) (next : α → Reading β) :
    (r >>= next).outcome = r.outcome >>= fun a => (next a).outcome := by
  obtain ⟨warnings, outcome⟩ := r
  cases outcome <;> rfl

/-- The reading comes to a result, or it reports what is wrong with the data. -/
def Proper (r : Reading α) : Prop := (∃ a, r.outcome = .ok a) ∨ ∃ fault, r.outcome = .error (.data fault)

end Reading

namespace Document

open Json

/-- A value of the coordinate is an integer that no double reaches. The second value does not matter
if the first one is no number. -/
def OutOfReach (coordinate : Json) : Prop :=
  ∃ a b, pairOf coordinate = .ok (a, b) ∧
    (a.BeyondDoubles ∨ (∃ x, a.toFloat = .ok x) ∧ b.BeyondDoubles)

/-- The place of a coordinate, unknown if the coordinate cannot be used. -/
def placeOf? (order : AxisOrder) (coordinate : Json) : Option Location :=
  (placeOf order coordinate).toOption

theorem outOfReach_iff {coordinate a b : Json} (h : pairOf coordinate = .ok (a, b)) :
    OutOfReach coordinate ↔ a.BeyondDoubles ∨ (∃ x, a.toFloat = .ok x) ∧ b.BeyondDoubles := by
  constructor
  · rintro ⟨a', b', h', hbeyond⟩
    obtain ⟨rfl, rfl⟩ : a = a' ∧ b = b' := by simpa [h] using h'
    exact hbeyond
  · exact fun hbeyond => ⟨a, b, h, hbeyond⟩

theorem pairOf_ne_badNumber (coordinate : Json) (e : CoercionError) :
    pairOf coordinate ≠ .error (.badNumber e) := by
  unfold pairOf
  intro h
  split at h <;> try split at h
  all_goals cases h

theorem placeOf_eq_overflow_iff (order : AxisOrder) (coordinate : Json) :
    placeOf order coordinate = .error (.badNumber .overflow) ↔ OutOfReach coordinate := by
  unfold placeOf
  cases hpair : pairOf coordinate with
  | error fault =>
    have hfault : fault ≠ .badNumber .overflow := fun h => pairOf_ne_badNumber coordinate _ (h ▸ hpair)
    simp [OutOfReach, hpair, hfault]
  | ok pair =>
    obtain ⟨a, b⟩ := pair
    rw [outOfReach_iff hpair, ← toFloat_eq_overflow_iff, ← toFloat_eq_overflow_iff]
    cases ha : a.toFloat with
    | error e => simp [ha]
    | ok x =>
      cases hb : b.toFloat with
      | error e => simp [ha, hb]
      | ok y => cases order <;> simp only [ha, hb] <;> split <;> simp

theorem outcome_readPlace_of_outOfReach {order : AxisOrder} {coordinate : Json} (id : Int)
    (h : OutOfReach coordinate) : (readPlace order id coordinate).outcome = .error .overflow := by
  simp [readPlace, (placeOf_eq_overflow_iff order coordinate).mpr h]

theorem outcome_readPlace {coordinate : Json} (order : AxisOrder) (id : Int)
    (h : ¬ OutOfReach coordinate) :
    (readPlace order id coordinate).outcome = .ok (placeOf? order coordinate) := by
  rw [← placeOf_eq_overflow_iff order] at h
  unfold readPlace placeOf?
  split
  case h_1 p hp => simp [hp, Except.toOption]
  case h_2 hp => exact absurd hp h
  case h_3 fault _ hp => simp [hp, Except.toOption]

def ending {α : Type} : Except DataFault α → Except LoadError α
  | .ok a => .ok a
  | .error fault => .error (.data fault)

@[simp] theorem ending_ok {α : Type} (a : α) : ending (.ok a) = .ok a := rfl

@[simp] theorem ending_error {α : Type} (fault : DataFault) :
    ending (.error fault : Except DataFault α) = .error (.data fault) := rfl

def fieldsIn (fault : DataFault) (value : Option Json) : Except DataFault Fields :=
  match value with
  | none => .ok []
  | some v =>
    if v.isTrue then
      match v with
      | obj fields => .ok fields
      | _ => .error fault
    else .ok []

theorem outcome_fieldsOr (fault : DataFault) (value : Option Json) :
    (fieldsOr fault value).outcome = ending (fieldsIn fault value) := by
  cases value with
  | none => rfl
  | some v =>
    cases h : v.isTrue with
    | false => simp [fieldsOr, fieldsIn, h]
    | true => cases v <;> simp [fieldsOr, fieldsIn, h]

def itemOf : Format → Nat → Item
  | .geojson => .feature
  | .json => .segment

def idGiven (format : Format) (k : Nat) (item : Json) : Except DataFault Json :=
  match format, item with
  | .geojson, obj fields =>
    (fieldsIn (.badProperties (.feature k)) (Table.get? fields "properties")).map fun properties =>
      (Table.get? properties "id").getD ((Table.get? fields "id").getD null)
  | .json, obj fields => .ok ((Table.get? fields "id").getD null)
  | _, _ => .error (.notObject (itemOf format k))

def tagsGiven (format : Format) (k : Nat) (item : Json) : Except DataFault Fields :=
  match format with
  | .geojson => (fieldsIn (.badProperties (.feature k)) (item.field? "properties")).map fun properties =>
      tagsOf (Table.remove properties "id")
  | .json => (fieldsIn (.badTags (.segment k)) (item.field? "tags")).map tagsOf

def coordinatesOf (format : Format) (item : Json) : Option (Json × Json) :=
  match format with
  | .geojson => lineEnds? (item.field? "geometry")
  | .json => some ((item.field? "start").getD null, (item.field? "end").getD null)

def orderOf : Format → AxisOrder
  | .geojson => .lonFirst
  | .json => .latFirst

def labelOf (format : Format) (k : Nat) (item : Json) : Except LoadError (Int × Fields) := do
  let value ← ending (idGiven format k item)
  let id ← (readId (itemOf format k) value).outcome
  let tags ← ending (tagsGiven format k item)
  .ok (id, tags)

def segmentOf (format : Format) (k : Nat) (item : Json) : Except LoadError Segment := do
  let (id, tags) ← labelOf format k item
  let ends := coordinatesOf format item
  let order := orderOf format
  .ok ⟨id, ends.bind fun e => placeOf? order e.1, ends.bind fun e => placeOf? order e.2, tags⟩

def HasInfiniteId (format : Format) (k : Nat) (item : Json) : Prop :=
  ∃ value, idGiven format k item = .ok value ∧ value.IsInfinity

/-- The item ends the reading for no fault of the data: its number is infinite, or one of its coordinates
is out of reach. -/
def Overflows (format : Format) (k : Nat) (item : Json) : Prop :=
  HasInfiniteId format k item ∨
    ∃ label ends, labelOf format k item = .ok label ∧ coordinatesOf format item = some ends ∧
      (OutOfReach ends.1 ∨ OutOfReach ends.2)

def readItem : Format → Nat → Json → Network → Reading Network
  | .geojson => readFeature
  | .json => readSegment

theorem readId_cases (item : Item) (value : Json) :
    (value.IsInfinity ∧ (readId item value).outcome = .error .overflow) ∨
      (¬ value.IsInfinity ∧ ∃ fault, (readId item value).outcome = .error (.data fault)) ∨
      (¬ value.IsInfinity ∧ ∃ id, (readId item value).outcome = .ok id) := by
  rw [← toInt_eq_overflow_iff]
  unfold readId
  cases h : value.toInt with
  | ok id => exact .inr (.inr ⟨by simp, id, rfl⟩)
  | error e =>
    cases e with
    | overflow => exact .inl ⟨rfl, rfl⟩
    | _ => exact .inr (.inl ⟨by simp, _, rfl⟩)

/-- Features and segments are read alike: the number and the tags first, then the coordinates. -/
theorem outcome_readItem (format : Format) (k : Nat) (item : Json) (g : Network) :
    (readItem format k item g).outcome = (do
      let (id, tags) ← labelOf format k item
      match coordinatesOf format item with
      | none => (addSegment g ⟨id, none, none, tags⟩).outcome
      | some (first, last) => do
        let start ← (readPlace (orderOf format) id first).outcome
        let finish ← (readPlace (orderOf format) id last).outcome
        (addSegment g ⟨id, start, finish, tags⟩).outcome) := by
  cases format with
  | geojson =>
    cases item with
    | obj fields =>
      simp only [readItem, readFeature, labelOf, idGiven, tagsGiven, itemOf, coordinatesOf, orderOf,
        Reading.outcome_bind, outcome_fieldsOr, field?]
      cases fieldsIn (.badProperties (.feature k)) (Table.get? fields "properties") with
      | error fault => rfl
      | ok properties =>
        -- The properties are read once and give both the number and the tags.
        cases lineEnds? (Table.get? fields "geometry") <;> simp [Except.map]
    | _ => rfl
  | json =>
    cases item with
    | obj fields =>
      simp only [readItem, readSegment, labelOf, idGiven, tagsGiven, itemOf, coordinatesOf, orderOf,
        Reading.outcome_bind, outcome_fieldsOr, field?]
      cases fieldsIn (.badTags (.segment k)) (Table.get? fields "tags") <;>
        simp [Except.map]
    | _ => rfl

theorem labelOf_cases (format : Format) (k : Nat) (item : Json) :
    (HasInfiniteId format k item ∧ labelOf format k item = .error .overflow) ∨
      (¬ HasInfiniteId format k item ∧
        ((∃ fault, labelOf format k item = .error (.data fault)) ∨
          ∃ id tags, labelOf format k item = .ok (id, tags))) := by
  unfold HasInfiniteId labelOf
  cases idGiven format k item with
  | error fault => exact .inr ⟨by simp, .inl ⟨fault, rfl⟩⟩
  | ok value =>
    rcases readId_cases (itemOf format k) value with ⟨hv, hid⟩ | ⟨hv, fault, hid⟩ | ⟨hv, id, hid⟩
    · exact .inl ⟨⟨value, rfl, hv⟩, by simp [hid]⟩
    · exact .inr ⟨by simpa using hv, .inl ⟨fault, by simp [hid]⟩⟩
    · refine .inr ⟨by simpa using hv, ?_⟩
      cases htags : tagsGiven format k item with
      | error fault => exact .inl ⟨fault, by simp [hid]⟩
      | ok tags => exact .inr ⟨id, tags, by simp [hid]⟩

def addItem (format : Format) (k : Nat) (item : Json) (g : Network) : Except LoadError Network := do
  (addSegment g (← segmentOf format k item)).outcome

theorem addSegment_proper (g : Network) (s : Segment) : (addSegment g s).Proper := by
  unfold addSegment
  split
  case h_1 h _ => exact .inl ⟨h, rfl⟩
  case h_2 id _ => exact .inr ⟨.duplicateId id, rfl⟩

theorem readItem_of_overflows {format : Format} {k : Nat} {item : Json} (h : Overflows format k item)
    (g : Network) : (readItem format k item g).outcome = .error .overflow := by
  rw [outcome_readItem]
  rcases h with hinfinite | ⟨⟨id, tags⟩, ⟨first, last⟩, hlabel, hends, hreach⟩
  · rcases labelOf_cases format k item with ⟨_, hlabel⟩ | ⟨hfinite, _⟩
    · simp [hlabel]
    · exact absurd hinfinite hfinite
  · simp only [hlabel, hends, Reading.ok_bind]
    by_cases hfirst : OutOfReach first
    · simp [outcome_readPlace_of_outOfReach id hfirst]
    · have hlast : OutOfReach last := hreach.resolve_left hfirst
      simp [outcome_readPlace _ id hfirst, outcome_readPlace_of_outOfReach id hlast]

theorem readItem_of_not_overflows {format : Format} {k : Nat} {item : Json}
    (h : ¬ Overflows format k item) (g : Network) :
    (readItem format k item g).outcome = addItem format k item g ∧ (readItem format k item g).Proper := by
  unfold Reading.Proper
  rw [outcome_readItem, addItem, segmentOf]
  rcases labelOf_cases format k item with ⟨hinfinite, _⟩ | ⟨_, ⟨fault, hlabel⟩ | ⟨id, tags, hlabel⟩⟩
  · exact absurd (.inl hinfinite) h
  · exact ⟨by simp [hlabel], .inr ⟨fault, by simp [hlabel]⟩⟩
  · cases hends : coordinatesOf format item with
    | none =>
      simp only [hlabel, Reading.ok_bind]
      exact ⟨rfl, addSegment_proper g _⟩
    | some ends =>
      obtain ⟨first, last⟩ := ends
      have hfirst : ¬ OutOfReach first := fun hf => h (.inr ⟨_, _, hlabel, hends, .inl hf⟩)
      have hlast : ¬ OutOfReach last := fun hl => h (.inr ⟨_, _, hlabel, hends, .inr hl⟩)
      simp only [hlabel, Reading.ok_bind, outcome_readPlace _ id hfirst, outcome_readPlace _ id hlast]
      exact ⟨rfl, addSegment_proper g _⟩

end Document

end RoadNames
