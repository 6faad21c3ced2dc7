import RoadNames.Proofs.Network.Connected
import RoadNames.Proofs.Network.Item
set_option autoImplicit false

/-!
What an item of a document describes, or else what is wrong with it. The first of these is read as it stands, with a
warning if one of its ends is not known; the second ends the reading.
-/

namespace RoadNames

namespace Reading

variable {α β : Type}

def WarnsOf (r : Reading α) (id : Int) : Prop := ∃ w ∈ r.warnings, w.segmentId = id

theorem pure_bind (a : α) (next : α → Reading β) : (pure a >>= next) = next a := rfl

theorem fail_bind (e : LoadError) (next : α → Reading β) : (fail e >>= next) = fail e := rfl

@[simp] theorem warnsOf_pure (a : α) (id : Int) : ¬ (pure a : Reading α).WarnsOf id := by
  rintro ⟨_, hw, _⟩
  cases hw

@[simp] theorem warnsOf_fail (e : LoadError) (id : Int) : ¬ (fail e : Reading α).WarnsOf id := by
  rintro ⟨_, hw, _⟩
  cases hw

@[simp] theorem warnsOf_warn (w : Warning) (id : Int) : (warn w).WarnsOf id ↔ w.segmentId = id := by
  simp [WarnsOf, warn]

theorem warnsOf_bind {r : Reading α} {a : α} (h : r.outcome = .ok a) (next : α → Reading β) (id : Int) :
    (r >>= next).WarnsOf id ↔ r.WarnsOf id ∨ (next a).WarnsOf id := by
  obtain ⟨warnings, outcome⟩ := r
  obtain rfl : outcome = .ok a := h
  show (∃ w ∈ warnings ++ (next a).warnings, w.segmentId = id) ↔ _
  simp [WarnsOf, or_and_right, exists_or]

end Reading

namespace Document

open Json

/-- The value is an object with these fields, or it is missing or holds nothing and there are no fields. -/
def Holds (value : Option Json) (fields : Fields) : Prop :=
  value = some (obj fields) ∨ (fields = [] ∧ ∀ v, value = some v → v.isTrue = false)

def attributesKey : Format → String
  | .geojson => "properties"
  | .json => "tags"

def attributesFault : Format → Nat → DataFault
  | .geojson, k => .badProperties (.feature k)
  | .json, k => .badTags (.segment k)

/-- The value that is the number of an item. That of a feature is among its attributes, or else beside them. -/
def idIn (format : Format) (fields attributes : Fields) : Json :=
  match format with
  | .geojson => (Table.get? attributes "id").getD ((Table.get? fields "id").getD null)
  | .json => (Table.get? fields "id").getD null

/-- The tags that attributes become: each attribute that is not null, as a text, but not the number of a feature. -/
inductive Tagged (format : Format) : Fields → Fields → Prop where
  | none : Tagged format [] []
  | null {key : String} {attributes tags : Fields} (h : Tagged format attributes tags) :
    Tagged format ((key, null) :: attributes) tags
  | number {value : Json} {attributes tags : Fields} (hformat : format = .geojson)
    (h : Tagged format attributes tags) : Tagged format (("id", value) :: attributes) tags
  | tag {key : String} {value : Json} {attributes tags : Fields} (hvalue : value ≠ null)
    (hkey : format = .geojson → key ≠ "id") (h : Tagged format attributes tags) :
    Tagged format ((key, value) :: attributes) ((key, str value.plainText) :: tags)

def tagsIn (format : Format) (attributes : Fields) : Fields :=
  match format with
  | .geojson => tagsOf (Table.remove attributes "id")
  | .json => tagsOf attributes

/-- The item is an object with attributes, if any, in an object and with a value that is read as an integer, and
the segment is what it describes. An end is not known if its coordinate cannot be used. -/
structure Describes (format : Format) (item : Json) (s : Segment) : Prop where
  label : ∃ fields attributes, item = obj fields ∧
    Holds (Table.get? fields (attributesKey format)) attributes ∧
    (idIn format fields attributes).toInt = .ok s.id ∧ Tagged format attributes s.tags
  start : s.start = (coordinatesOf format item).bind fun ends => placeOf? (orderOf format) ends.1
  finish : s.finish = (coordinatesOf format item).bind fun ends => placeOf? (orderOf format) ends.2

/-- What is wrong with the item at a place, where some numbers are taken. Of a feature the attributes are looked at
before the number, of a segment the number before the attributes. -/
inductive Offends (format : Format) (k : Nat) (taken : List Int) : Json → DataFault → Prop where
  | notObject {item : Json} (hitem : ∀ fields, item ≠ obj fields) :
    Offends format k taken item (.notObject (itemOf format k))
  | badAttributes {fields : Fields}
    (hid : format = .json → ∃ id, (idIn format fields []).toInt = .ok id)
    (hattributes : ∀ attributes, ¬ Holds (Table.get? fields (attributesKey format)) attributes) :
    Offends format k taken (obj fields) (attributesFault format k)
  | badId {fields attributes : Fields} {e : CoercionError}
    (hattributes : format = .geojson → Holds (Table.get? fields (attributesKey format)) attributes)
    (hid : (idIn format fields attributes).toInt = .error e) :
    Offends format k taken (obj fields) (.badId (itemOf format k) (idIn format fields attributes))
  | duplicate {item : Json} {s : Segment} (hitem : Describes format item s) (hid : s.id ∈ taken) :
    Offends format k taken item (.duplicateId s.id)

/-- The number of the item is no infinity, and its coordinates hold no integer that no double reaches. -/
structure Fits (format : Format) (item : Json) : Prop where
  id : ∀ fields attributes, item = obj fields →
    (format = .geojson → Holds (Table.get? fields (attributesKey format)) attributes) →
    ¬ (idIn format fields attributes).IsInfinity
  ends : ∀ first last, coordinatesOf format item = some (first, last) → ¬ OutOfReach first ∧ ¬ OutOfReach last

theorem isNull_iff (value : Json) : value.isNull = true ↔ value = null := by
  cases value <;> simp [isNull]

theorem tagsOf_cons (key : String) (value : Json) (rest : Fields) :
    tagsOf ((key, value) :: rest) =
      if value.isNull then tagsOf rest else (key, str value.plainText) :: tagsOf rest := by
  cases h : value.isNull <;> simp [tagsOf, h]

theorem tagsIn_cons (format : Format) (key : String) (value : Json) (rest : Fields) :
    tagsIn format ((key, value) :: rest) =
      if value.isNull ∨ (format = .geojson ∧ key = "id") then tagsIn format rest
      else (key, str value.plainText) :: tagsIn format rest := by
  cases format with
  | json => simp [tagsIn, tagsOf_cons]
  | geojson =>
    by_cases hkey : key = "id"
    · simp [tagsIn, Table.remove, hkey]
    · have hremove : Table.remove ((key, value) :: rest) "id" = (key, value) :: Table.remove rest "id" := by
        simp [Table.remove, hkey]
      simp [tagsIn, hremove, tagsOf_cons, hkey]

theorem tagged_tagsIn (format : Format) (attributes : Fields) :
    Tagged format attributes (tagsIn format attributes) := by
  induction attributes with
  | nil => cases format <;> exact .none
  | cons given rest ih =>
    obtain ⟨key, value⟩ := given
    rw [tagsIn_cons]
    split
    case isTrue hout =>
      rcases hout with hnull | ⟨hformat, rfl⟩
      · obtain rfl := (isNull_iff _).mp hnull
        exact .null ih
      · exact .number hformat ih
    case isFalse hin =>
      rw [not_or, not_and] at hin
      exact .tag (fun hnull => hin.1 ((isNull_iff _).mpr hnull)) hin.2 ih

theorem Tagged.eq_tagsIn {format : Format} {attributes tags : Fields} (h : Tagged format attributes tags) :
    tags = tagsIn format attributes := by
  induction h with
  | none => cases format <;> rfl
  | null _ ih => rw [tagsIn_cons, if_pos (.inl rfl), ih]
  | number hformat _ ih => rw [tagsIn_cons, if_pos (.inr ⟨hformat, rfl⟩), ih]
  | tag hvalue hkey _ ih =>
    rw [tagsIn_cons, if_neg, ih]
    rintro (hnull | ⟨hformat, rfl⟩)
    · exact hvalue ((isNull_iff _).mp hnull)
    · exact hkey hformat rfl

theorem fieldsOr_of_holds {value : Option Json} {fields : Fields} (h : Holds value fields) (fault : DataFault) :
    fieldsOr fault value = pure fields := by
  rcases h with rfl | ⟨rfl, h⟩
  · cases fields <;> rfl
  · cases value with
    | none => rfl
    | some v => simp [fieldsOr, h v rfl]

theorem fieldsOr_of_not_holds {value : Option Json} (h : ∀ fields, ¬ Holds value fields) (fault : DataFault) :
    fieldsOr fault value = .fail (.data fault) := by
  cases value with
  | none => exact absurd (.inr ⟨rfl, by simp⟩) (h [])
  | some v =>
    cases htrue : v.isTrue with
    | false => exact absurd (.inr ⟨rfl, by simp [htrue]⟩) (h [])
    | true =>
      cases v with
      | obj fields => exact absurd (.inl rfl) (h fields)
      | _ => simp [fieldsOr, htrue]

theorem readId_of_ok {value : Json} {id : Int} (h : value.toInt = .ok id) (item : Item) :
    readId item value = pure id := by
  simp [readId, h]

theorem readId_of_error {value : Json} {e : CoercionError} (h : value.toInt = .error e)
    (hfinite : ¬ value.IsInfinity) (item : Item) : readId item value = .fail (.data (.badId item value)) := by
  have hne : e ≠ .overflow := fun he => hfinite ((toInt_eq_overflow_iff value).mp (he ▸ h))
  unfold readId
  rw [h]
  cases e <;> simp at hne ⊢

theorem Holds.unique {value : Option Json} {fields others : Fields} (h : Holds value fields)
    (h' : Holds value others) : fields = others := by
  have hsame := (fieldsOr_of_holds h .noSegmentList).symm.trans (fieldsOr_of_holds h' _)
  exact Except.ok.inj (congrArg Reading.outcome hsame)

theorem Describes.unique {format : Format} {item : Json} {s t : Segment} (hs : Describes format item s)
    (ht : Describes format item t) : s = t := by
  obtain ⟨fields, attributes, rfl, hattributes, hid, htags⟩ := hs.label
  obtain ⟨others, attributes', hitem, hattributes', hid', htags'⟩ := ht.label
  obtain rfl := obj.inj hitem
  obtain rfl := hattributes.unique hattributes'
  have hsameId : s.id = t.id := Except.ok.inj (hid.symm.trans hid')
  have hsameTags : s.tags = t.tags := htags.eq_tagsIn.trans htags'.eq_tagsIn.symm
  have hstart : s.start = t.start := hs.start.trans ht.start.symm
  have hfinish : s.finish = t.finish := hs.finish.trans ht.finish.symm
  cases s
  cases t
  simp_all

theorem describes_or_offends (format : Format) (k : Nat) (taken : List Int) (item : Json) :
    (∃ s, Describes format item s ∧ s.id ∉ taken) ∨ ∃ fault, Offends format k taken item fault := by
  by_cases hitem : ∃ fields, item = obj fields
  · obtain ⟨fields, rfl⟩ := hitem
    by_cases hattributes : ∃ attributes, Holds (Table.get? fields (attributesKey format)) attributes
    · obtain ⟨attributes, hattributes⟩ := hattributes
      cases hid : (idIn format fields attributes).toInt with
      | error e => exact .inr ⟨_, .badId (fun _ => hattributes) hid⟩
      | ok id =>
        have hdescribes : Describes format (obj fields) ⟨id, _, _, tagsIn format attributes⟩ :=
          ⟨⟨fields, attributes, rfl, hattributes, hid, tagged_tagsIn _ _⟩, rfl, rfl⟩
        by_cases htaken : id ∈ taken
        · exact .inr ⟨_, .duplicate hdescribes htaken⟩
        · exact .inl ⟨_, hdescribes, htaken⟩
    · rw [not_exists] at hattributes
      cases format with
      | geojson => exact .inr ⟨_, .badAttributes (by simp) hattributes⟩
      | json =>
        cases hid : (idIn .json fields []).toInt with
        | ok id => exact .inr ⟨_, .badAttributes (fun _ => ⟨id, hid⟩) hattributes⟩
        | error e => exact .inr ⟨_, .badId (by simp) hid⟩
  · exact .inr ⟨_, .notObject (not_exists.mp hitem)⟩

def readEnds (format : Format) (item : Json) (id : Int) (tags : Fields) (g : Network) : Reading Network :=
  match coordinatesOf format item with
  | none => do
    Reading.warn (.noLine id)
    addSegment g ⟨id, none, none, tags⟩
  | some (first, last) => do
    let start ← readPlace (orderOf format) id first
    let finish ← readPlace (orderOf format) id last
    addSegment g ⟨id, start, finish, tags⟩

theorem readItem_geojson (k : Nat) (fields : Fields) (g : Network) :
    readItem .geojson k (obj fields) g = (do
      let attributes ← fieldsOr (attributesFault .geojson k) (Table.get? fields (attributesKey .geojson))
      let id ← readId (itemOf .geojson k) (idIn .geojson fields attributes)
      readEnds .geojson (obj fields) id (tagsIn .geojson attributes) g) := rfl

theorem readItem_json (k : Nat) (fields attributes : Fields) (g : Network) :
    readItem .json k (obj fields) g = (do
      let id ← readId (itemOf .json k) (idIn .json fields attributes)
      let attributes ← fieldsOr (attributesFault .json k) (Table.get? fields (attributesKey .json))
      readEnds .json (obj fields) id (tagsIn .json attributes) g) := rfl

theorem readItem_of_label {format : Format} {fields attributes : Fields} {id : Int}
    (hattributes : Holds (Table.get? fields (attributesKey format)) attributes)
    (hid : (idIn format fields attributes).toInt = .ok id) (k : Nat) (g : Network) :
    readItem format k (obj fields) g = readEnds format (obj fields) id (tagsIn format attributes) g := by
  cases format with
  | geojson =>
    rw [readItem_geojson, fieldsOr_of_holds hattributes, Reading.pure_bind, readId_of_ok hid, Reading.pure_bind]
  | json =>
    rw [readItem_json k fields attributes, readId_of_ok hid, Reading.pure_bind, fieldsOr_of_holds hattributes,
      Reading.pure_bind]

theorem readItem_of_badId {format : Format} {fields attributes : Fields} {e : CoercionError}
    (hattributes : format = .geojson → Holds (Table.get? fields (attributesKey format)) attributes)
    (hid : (idIn format fields attributes).toInt = .error e) (hfinite : ¬ (idIn format fields attributes).IsInfinity)
    (k : Nat) (g : Network) :
    (readItem format k (obj fields) g).outcome =
      .error (.data (.badId (itemOf format k) (idIn format fields attributes))) := by
  cases format with
  | geojson =>
    rw [readItem_geojson, fieldsOr_of_holds (hattributes rfl), Reading.pure_bind, readId_of_error hid hfinite,
      Reading.fail_bind, Reading.outcome_fail]
  | json =>
    rw [readItem_json k fields attributes, readId_of_error hid hfinite, Reading.fail_bind, Reading.outcome_fail]

theorem warnsOf_readPlace {coordinate : Json} (order : AxisOrder) (id : Int) (h : ¬ OutOfReach coordinate)
    (n : Int) :
    (readPlace order id coordinate).WarnsOf n ↔ n = id ∧ placeOf? order coordinate = none := by
  rw [← placeOf_eq_overflow_iff order] at h
  unfold readPlace placeOf?
  split
  case h_1 p hp => simp [hp, Except.toOption]
  case h_2 hp => exact absurd hp h
  case h_3 fault _ hp =>
    rw [Reading.warnsOf_bind rfl]
    simp [hp, Except.toOption, Warning.segmentId, eq_comm]

theorem warnsOf_addSegment (g : Network) (s : Segment) (n : Int) : ¬ (addSegment g s).WarnsOf n := by
  unfold addSegment
  split <;> simp

theorem addSegment_of_not_mem {g : Network} {s : Segment} (h : s.id ∉ g.ids) :
    (addSegment g s).outcome = .ok (g.arrive s) := by
  rcases Network.add_cases g s with ⟨hmem, _⟩ | ⟨_, he⟩
  · exact absurd hmem h
  · simp [addSegment, Network.arrive, he]

theorem addSegment_of_mem {g : Network} {s : Segment} (h : s.id ∈ g.ids) :
    (addSegment g s).outcome = .error (.data (.duplicateId s.id)) := by
  rcases Network.add_cases g s with ⟨_, he⟩ | ⟨hnew, _⟩
  · simp [addSegment, he]
  · exact absurd h hnew

variable {format : Format} {item : Json} {s : Segment}

/-- Reading an item that describes a segment comes down to adding that segment, and warns of it just if one of its
ends is not known. -/
theorem readItem_of_describes (h : Describes format item s) (hfits : Fits format item) (k : Nat) (g : Network) :
    (readItem format k item g).outcome = (addSegment g s).outcome ∧
      ∀ n, (readItem format k item g).WarnsOf n ↔ n = s.id ∧ (s.start = none ∨ s.finish = none) := by
  obtain ⟨fields, attributes, rfl, hattributes, hid, htags⟩ := h.label
  rw [readItem_of_label hattributes hid, ← htags.eq_tagsIn, readEnds]
  have hstart := h.start
  have hfinish := h.finish
  cases hends : coordinatesOf format (obj fields) with
  | none =>
    rw [hends] at hstart hfinish
    have hs : (⟨s.id, none, none, s.tags⟩ : Segment) = s := by
      show _ = (⟨s.id, s.start, s.finish, s.tags⟩ : Segment)
      rw [hstart, hfinish]
      rfl
    dsimp only
    rw [hs]
    refine ⟨rfl, fun n => ?_⟩
    rw [Reading.warnsOf_bind rfl]
    simp [warnsOf_addSegment, Warning.segmentId, hstart, eq_comm]
  | some ends =>
    obtain ⟨first, last⟩ := ends
    obtain ⟨hfirst, hlast⟩ := hfits.ends first last hends
    rw [hends] at hstart hfinish
    have hfirst' := outcome_readPlace (orderOf format) s.id hfirst
    have hlast' := outcome_readPlace (orderOf format) s.id hlast
    simp only [Option.bind_some] at hstart hfinish
    rw [← hstart] at hfirst'
    rw [← hfinish] at hlast'
    refine ⟨by simp [hfirst', hlast'], fun n => ?_⟩
    rw [Reading.warnsOf_bind hfirst', Reading.warnsOf_bind hlast', warnsOf_readPlace _ _ hfirst,
      warnsOf_readPlace _ _ hlast, ← hstart, ← hfinish]
    simp [warnsOf_addSegment, and_or_left]

theorem readItem_of_offends {k : Nat} {g : Network} {fault : DataFault} (h : Offends format k g.ids item fault)
    (hfits : Fits format item) : (readItem format k item g).outcome = .error (.data fault) := by
  cases h with
  | notObject hitem =>
    cases format <;> cases item <;> first | rfl | exact absurd rfl (hitem _)
  | @badAttributes fields hid hattributes =>
    cases format with
    | geojson => rw [readItem_geojson, fieldsOr_of_not_holds hattributes, Reading.fail_bind, Reading.outcome_fail]
    | json =>
      obtain ⟨id, hid⟩ := hid rfl
      rw [readItem_json k fields [], readId_of_ok hid, Reading.pure_bind, fieldsOr_of_not_holds hattributes,
        Reading.fail_bind, Reading.outcome_fail]
  | badId hattributes hid => exact readItem_of_badId hattributes hid (hfits.id _ _ rfl hattributes) k g
  | duplicate hitem hid => rw [(readItem_of_describes hitem hfits k g).1, addSegment_of_mem hid]

end Document

end RoadNames
