import RoadNames.Proofs.Network.Formats
import RoadNames.Proofs.Network.Offence
set_option autoImplicit false

namespace RoadNames

namespace Document

open Json Decimal Text

/-- A list of at least two values. -/
def IsPosition : Json → Prop
  | arr (_ :: _ :: _) => True
  | _ => False

/-- A text that begins with two digits, of any script. -/
def BeginsWithDigits : Json → Prop
  | str s => ∃ a b rest, s.toList = a :: b :: rest ∧ (digitValue? a).isSome = true ∧ (digitValue? b).isSome = true
  | _ => False

theorem ofDegrees_digits {d e : Nat} (hd : d < 10) (he : e < 10) :
    ∃ p, Location.ofDegrees (nearestFloat d 1 0) (nearestFloat e 1 0) = .ok p := by
  have hfinite : ∀ d < 10, isFinite (nearestFloat d 1 0) = true := by decide +kernel
  have hglobe : ∀ d < 10, ∀ e < 10, isOnGlobe (nearestFloat d 1 0) (nearestFloat e 1 0) = true := by decide +kernel
  have hpair : isFinitePair (nearestFloat d 1 0) (nearestFloat e 1 0) = true := by
    simp [isFinitePair, hfinite d hd, hfinite e he]
  exact ⟨_, by rw [Location.ofDegrees, dif_pos hpair, dif_pos (hglobe d hd e he)]⟩

theorem placeOf?_eq_none {order : AxisOrder} {v a b : Json} (hpair : pairOf v = .ok (a, b))
    (h : a.toFloat.toOption = none ∨ b.toFloat.toOption = none) : placeOf? order v = none := by
  unfold placeOf? placeOf
  rw [hpair]
  cases ha : a.toFloat with
  | error e => simp [ha, Except.toOption]
  | ok x =>
    cases hb : b.toFloat with
    | error e => simp [ha, hb, Except.toOption]
    | ok y => simp [ha, hb, Except.toOption] at h

theorem exists_placeOf?_of_digits (order : AxisOrder) {v a b : Json} {d e : Nat} (hpair : pairOf v = .ok (a, b))
    (hd : d < 10) (he : e < 10) (ha : a.toFloat.toOption = some (nearestFloat d 1 0))
    (hb : b.toFloat.toOption = some (nearestFloat e 1 0)) : ∃ p, placeOf? order v = some p := by
  unfold placeOf? placeOf
  rw [hpair]
  cases hx : a.toFloat with
  | error => simp [hx, Except.toOption] at ha
  | ok x =>
    cases hy : b.toFloat with
    | error => simp [hy, Except.toOption] at hb
    | ok y =>
      obtain rfl : x = nearestFloat d 1 0 := by simpa [hx, Except.toOption] using ha
      obtain rfl : y = nearestFloat e 1 0 := by simpa [hy, Except.toOption] using hb
      cases order with
      | latFirst =>
        obtain ⟨p, hp⟩ := ofDegrees_digits hd he
        exact ⟨p, by simp [hx, hy, hp, Except.toOption]⟩
      | lonFirst =>
        obtain ⟨p, hp⟩ := ofDegrees_digits he hd
        exact ⟨p, by simp [hx, hy, hp, Except.toOption]⟩

theorem isSome_placeOf?_str_iff (order : AxisOrder) (s : String) :
    (placeOf? order (str s)).isSome = true ↔ BeginsWithDigits (str s) := by
  cases hs : s.toList with
  | nil => simp [BeginsWithDigits, placeOf?, placeOf, pairOf, hs, Except.toOption]
  | cons a rest =>
    cases rest with
    | nil => simp [BeginsWithDigits, placeOf?, placeOf, pairOf, hs, Except.toOption]
    | cons b rest =>
      have hpair : pairOf (str s) = .ok (str (String.singleton a), str (String.singleton b)) := by
        simp [pairOf, hs]
      have hbegins : BeginsWithDigits (str s) ↔
          (digitValue? a).isSome = true ∧ (digitValue? b).isSome = true := by
        simp [BeginsWithDigits, hs]
      have ha := toFloat_singleton a
      have hb := toFloat_singleton b
      rw [hbegins]
      cases hd : digitValue? a with
      | none =>
        rw [hd] at ha
        simp [placeOf?_eq_none hpair (.inl ha)]
      | some d =>
        cases he : digitValue? b with
        | none =>
          rw [he] at hb
          simp [placeOf?_eq_none hpair (.inr hb)]
        | some e =>
          rw [hd] at ha
          rw [he] at hb
          obtain ⟨p, hp⟩ := exists_placeOf?_of_digits order hpair (lt_of_digitValue? hd) (lt_of_digitValue? he) ha hb
          simp [hp]

theorem isPosition_or_beginsWithDigits {order : AxisOrder} {v : Json} {p : Location}
    (h : placeOf? order v = some p) : IsPosition v ∨ BeginsWithDigits v := by
  cases v with
  | str s => exact .inr ((isSome_placeOf?_str_iff order s).mp (by simp [h]))
  | arr items =>
    match items with
    | _ :: _ :: _ => exact .inl trivial
    | [_] => cases h
    | [] => cases h
  | obj fields =>
    match fields with
    | _ :: _ :: _ => cases h
    | [_] => cases h
    | [] => cases h
  | _ => cases h

theorem not_isPosition_of_beginsWithDigits {v : Json} (h : BeginsWithDigits v) : ¬ IsPosition v := by
  cases v with
  | str => exact not_false
  | _ => exact h.elim

end Document

namespace Reading

variable {α β : Type}

theorem warnings_bind {r : Reading α} {a : α} (h : r.outcome = .ok a) (next : α → Reading β) :
    (r >>= next).warnings = r.warnings ++ (next a).warnings := by
  obtain ⟨warnings, outcome⟩ := r
  obtain rfl : outcome = .ok a := h
  rfl

theorem bind_eq_error {ε : Type} {x : Except ε α} {next : α → Except ε β} {e : ε} (h : (x >>= next) = .error e) :
    x = .error e ∨ ∃ a, x = .ok a ∧ next a = .error e := by
  cases x with
  | error e' =>
    obtain rfl := Except.error.inj h
    exact .inl rfl
  | ok a => exact .inr ⟨a, rfl, h⟩

theorem bind_eq_ok {ε : Type} {x : Except ε α} {next : α → Except ε β} {b : β} (h : (x >>= next) = .ok b) :
    ∃ a, x = .ok a ∧ next a = .ok b := by
  cases x with
  | error e => cases h
  | ok a => exact ⟨a, rfl, h⟩

end Reading

def Warning.subject : Warning → Int × Option Json
  | .noLine id => (id, none)
  | .badCoordinate id value _ => (id, some value)

namespace Document

open Json

def GivesId (format : Format) (item value : Json) : Prop :=
  ∃ fields attributes, item = obj fields ∧
    (format = .geojson → Holds (Table.get? fields (attributesKey format)) attributes) ∧
    value = idIn format fields attributes

/-- One of the ends of the item is a text that is taken for a coordinate. -/
def HasTextEnd (format : Format) (item : Json) : Prop :=
  ∃ ends, coordinatesOf format item = some ends ∧ (BeginsWithDigits ends.1 ∨ BeginsWithDigits ends.2)

/-- If the place is known, it is that of a position, which is the end of the item on this side. -/
def ComesFrom (format : Format) (item : Json) (side : Json × Json → Json) (place : Option Location) : Prop :=
  ∀ p, place = some p → ∃ ends, coordinatesOf format item = some ends ∧ IsPosition (side ends) ∧
    placeOf? (orderOf format) (side ends) = some p

/-- The number of the segment is the integer that the item gives, and its places are those of positions. -/
structure Reflects (format : Format) (item : Json) (s : Segment) : Prop where
  id : ∃ value, GivesId format item value ∧ value.Denotes s.id
  start : ComesFrom format item Prod.fst s.start
  finish : ComesFrom format item Prod.snd s.finish

variable {format : Format} {item value : Json} {s : Segment}

theorem GivesId.unique {other : Json} (h : GivesId format item value) (h' : GivesId format item other) :
    value = other := by
  obtain ⟨fields, attributes, rfl, hattributes, rfl⟩ := h
  obtain ⟨_, attributes', hitem, hattributes', rfl⟩ := h'
  obtain rfl := obj.inj hitem
  cases format with
  | json => rfl
  | geojson => rw [(hattributes rfl).unique (hattributes' rfl)]

theorem Describes.exists_givesId (h : Describes format item s) :
    ∃ value, GivesId format item value ∧ value.toInt = .ok s.id := by
  obtain ⟨fields, attributes, hitem, hattributes, hid, _⟩ := h.label
  exact ⟨_, ⟨fields, attributes, hitem, fun _ => hattributes, rfl⟩, hid⟩

theorem comesFrom_iff {side : Json × Json → Json} {place : Option Location}
    (hplace : place = (coordinatesOf format item).bind fun ends => placeOf? (orderOf format) (side ends)) :
    ComesFrom format item side place ↔
      ∀ ends, coordinatesOf format item = some ends → ¬ BeginsWithDigits (side ends) := by
  subst hplace
  constructor
  · intro h ends hends hdigits
    have hsome : (placeOf? (orderOf format) (side ends)).isSome = true := by
      cases hside : side ends with
      | str text => exact (isSome_placeOf?_str_iff _ text).mpr (hside ▸ hdigits)
      | _ =>
        rw [hside] at hdigits
        exact hdigits.elim
    obtain ⟨p, hp⟩ := Option.isSome_iff_exists.mp hsome
    obtain ⟨ends', hends', hposition, _⟩ := h p (by rw [hends, Option.bind_some, hp])
    obtain rfl := Option.some.inj (hends.symm.trans hends')
    exact not_isPosition_of_beginsWithDigits hdigits hposition
  · intro h p hp
    obtain ⟨ends, hends, hside⟩ := Option.bind_eq_some_iff.mp hp
    exact ⟨ends, hends, (isPosition_or_beginsWithDigits hside).resolve_right (h ends hends), hside⟩

/-- What an item describes reflects it, unless its number is misread or a text is taken for one of its ends. -/
theorem reflects_iff (h : Describes format item s) :
    Reflects format item s ↔
      (∀ value, GivesId format item value → ¬ value.IsMisread) ∧ ¬ HasTextEnd format item := by
  obtain ⟨value, hvalue, hid⟩ := h.exists_givesId
  have hstart := comesFrom_iff h.start
  have hfinish := comesFrom_iff h.finish
  constructor
  · intro hreflects
    constructor
    · intro other hother hmisread
      obtain ⟨given, hgiven, hdenotes⟩ := hreflects.id
      obtain rfl := hgiven.unique hother
      exact hmisread.not_denotes s.id hdenotes
    · rintro ⟨ends, hends, hfirst | hlast⟩
      · exact hstart.mp hreflects.start ends hends hfirst
      · exact hfinish.mp hreflects.finish ends hends hlast
  · rintro ⟨hread, htext⟩
    exact {
      id := ⟨value, hvalue, (denotes_or_isMisread hid).resolve_right (hread value hvalue)⟩
      start := hstart.mpr fun ends hends hfirst => htext ⟨ends, hends, .inl hfirst⟩
      finish := hfinish.mpr fun ends hends hlast => htext ⟨ends, hends, .inr hlast⟩ }

/-- The ends of the item that are not known, with the number of the segment: each end of a line, or the line as a
whole if there is none. -/
def missingEnds (format : Format) (item : Json) (s : Segment) : List (Int × Option Json) :=
  match coordinatesOf format item with
  | none => [(s.id, none)]
  | some (first, last) =>
    (if s.start = none then [(s.id, some first)] else []) ++ if s.finish = none then [(s.id, some last)] else []

theorem readPlace_of_ok {order : AxisOrder} {id : Int} {coordinate : Json} {place : Option Location}
    (h : (readPlace order id coordinate).outcome = .ok place) :
    place = placeOf? order coordinate ∧
      (readPlace order id coordinate).warnings.map Warning.subject =
        if place = none then [(id, some coordinate)] else [] := by
  unfold readPlace placeOf? at *
  split at h
  case h_1 p hp =>
    obtain rfl := Except.ok.inj h
    simp [hp, Except.toOption, pure]
  case h_2 => cases h
  case h_3 fault _ hp =>
    obtain rfl := Except.ok.inj h
    rw [Reading.warnings_bind rfl]
    simp [hp, Except.toOption, Reading.warn, Warning.subject, pure]

theorem warnings_addSegment (g : Network) (s : Segment) : (addSegment g s).warnings = [] := by
  unfold addSegment
  split <;> rfl

theorem subjects_readItem {k : Nat} {g h : Network} (hdescribes : Describes format item s)
    (hread : (readItem format k item g).outcome = .ok h) :
    (readItem format k item g).warnings.map Warning.subject = missingEnds format item s := by
  obtain ⟨fields, attributes, rfl, hattributes, hid, _⟩ := hdescribes.label
  have hstart := hdescribes.start
  have hfinish := hdescribes.finish
  rw [readItem_of_label hattributes hid, readEnds] at hread ⊢
  unfold missingEnds
  cases hends : coordinatesOf format (obj fields) with
  | none =>
    dsimp only
    rw [Reading.warnings_bind rfl, warnings_addSegment]
    rfl
  | some ends =>
    obtain ⟨first, last⟩ := ends
    rw [hends, Option.bind_some] at hstart hfinish
    rw [hends] at hread
    dsimp only at hread ⊢
    rw [Reading.outcome_bind] at hread
    obtain ⟨start, hs, hread⟩ := Reading.bind_eq_ok hread
    rw [Reading.outcome_bind] at hread
    obtain ⟨finish, hf, _⟩ := Reading.bind_eq_ok hread
    obtain ⟨hs', hstartSubjects⟩ := readPlace_of_ok hs
    obtain ⟨hf', hfinishSubjects⟩ := readPlace_of_ok hf
    rw [Reading.warnings_bind hs, Reading.warnings_bind hf, warnings_addSegment, List.append_nil, List.map_append,
      hstartSubjects, hfinishSubjects, hs', hf', ← hstart, ← hfinish]

theorem fieldsIn_of_holds {given : Option Json} {fields : Fields} (h : Holds given fields) (fault : DataFault) :
    fieldsIn fault given = .ok fields := by
  rcases h with rfl | ⟨rfl, h⟩
  · exact fieldsIn_obj fault fields
  · cases given with
    | none => rfl
    | some v => simp [fieldsIn, h v rfl]

theorem idGiven_of_givesId (h : GivesId format item value) (k : Nat) : idGiven format k item = .ok value := by
  obtain ⟨fields, attributes, rfl, hattributes, rfl⟩ := h
  cases format with
  | json => rfl
  | geojson =>
    show (fieldsIn _ (Table.get? fields (attributesKey .geojson))).map _ = _
    rw [fieldsIn_of_holds (hattributes rfl)]
    rfl

theorem fits_of_readItem {k : Nat} {g h : Network} (hread : (readItem format k item g).outcome = .ok h) :
    Fits format item := by
  have hover : ¬ Overflows format k item := fun hover => by
    rw [readItem_of_overflows hover g] at hread
    cases hread
  constructor
  · intro fields attributes hitem hattributes hinfinite
    exact hover (.inl ⟨_, idGiven_of_givesId ⟨fields, attributes, hitem, hattributes, rfl⟩ k, hinfinite⟩)
  · intro first last hends
    rw [outcome_readItem] at hread
    obtain ⟨label, hlabel, _⟩ := Reading.bind_eq_ok hread
    exact ⟨fun hfirst => hover (.inr ⟨label, _, hlabel, hends, .inl hfirst⟩),
      fun hlast => hover (.inr ⟨label, _, hlabel, hends, .inr hlast⟩)⟩

theorem badId_of_readId {i : Item} {place : Item} {v : Json}
    (h : (readId place value).outcome = .error (.data (.badId i v))) : i = place ∧ ∃ e, value.toInt = .error e := by
  unfold readId at h
  split at h
  case h_1 => cases h
  case h_2 => cases h
  case h_3 e _ he =>
    cases h
    exact ⟨rfl, e, he⟩

theorem outcome_readEnds_ne_badId (item : Json) (id : Int) (tags : Fields) (g : Network) (i : Item) (v : Json) :
    (readEnds format item id tags g).outcome ≠ .error (.data (.badId i v)) := by
  have hadd : ∀ s, (addSegment g s).outcome ≠ .error (.data (.badId i v)) := by
    intro s h
    unfold addSegment at h
    split at h <;> cases h
  have hplace : ∀ coordinate,
      (readPlace (orderOf format) id coordinate).outcome ≠ .error (.data (.badId i v)) := by
    intro coordinate h
    by_cases hreach : OutOfReach coordinate
    · rw [outcome_readPlace_of_outOfReach id hreach] at h
      cases h
    · rw [outcome_readPlace _ id hreach] at h
      cases h
  intro h
  unfold readEnds at h
  split at h
  case h_1 => exact hadd _ h
  case h_2 =>
    rw [Reading.outcome_bind] at h
    rcases Reading.bind_eq_error h with h | ⟨start, _, h⟩
    · exact hplace _ h
    rw [Reading.outcome_bind] at h
    rcases Reading.bind_eq_error h with h | ⟨finish, _, h⟩
    · exact hplace _ h
    · exact hadd _ h

theorem fieldsOr_cases (fault : DataFault) (given : Option Json) :
    (∃ fields, Holds given fields ∧ fieldsOr fault given = pure fields) ∨ fieldsOr fault given = .fail (.data fault) := by
  by_cases h : ∃ fields, Holds given fields
  · obtain ⟨fields, hfields⟩ := h
    exact .inl ⟨fields, hfields, fieldsOr_of_holds hfields fault⟩
  · exact .inr (fieldsOr_of_not_holds (not_exists.mp h) fault)

theorem badId_of_readItem {k : Nat} {g : Network} {i : Item} {v : Json}
    (h : (readItem format k item g).outcome = .error (.data (.badId i v))) :
    i = itemOf format k ∧ ∃ value e, GivesId format item value ∧ value.toInt = .error e := by
  cases item with
  | obj fields =>
    cases format with
    | geojson =>
      rw [readItem_geojson] at h
      rcases fieldsOr_cases (attributesFault .geojson k) (Table.get? fields (attributesKey .geojson)) with
        ⟨attributes, hattributes, hread⟩ | hread
      · rw [hread, Reading.pure_bind, Reading.outcome_bind] at h
        rcases Reading.bind_eq_error h with h | ⟨id, _, h⟩
        · obtain ⟨hplace, e, he⟩ := badId_of_readId h
          exact ⟨hplace, _, e, ⟨fields, attributes, rfl, fun _ => hattributes, rfl⟩, he⟩
        · exact absurd h (outcome_readEnds_ne_badId _ _ _ _ _ _)
      · rw [hread] at h
        cases h
    | json =>
      rw [readItem_json k fields [], Reading.outcome_bind] at h
      rcases Reading.bind_eq_error h with h | ⟨id, _, h⟩
      · obtain ⟨hplace, e, he⟩ := badId_of_readId h
        exact ⟨hplace, _, e, ⟨fields, [], rfl, by simp, rfl⟩, he⟩
      · rcases fieldsOr_cases (attributesFault .json k) (Table.get? fields (attributesKey .json)) with
          ⟨attributes, _, hread⟩ | hread
        · rw [hread, Reading.pure_bind] at h
          exact absurd h (outcome_readEnds_ne_badId _ _ _ _ _ _)
        · rw [hread] at h
          cases h
  | _ => cases format <;> cases h

end Document

end RoadNames
