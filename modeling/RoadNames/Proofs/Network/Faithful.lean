import RoadNames.Proofs.Network.Complete
import RoadNames.Proofs.Network.Reflection
set_option autoImplicit false

/-!
No data is invented when a document is read, as long as nothing in it is taken for what it is not. A truth value
or a fraction is taken for a number, and a text that begins with two digits for a coordinate; these, and infinite
numbers, are all that stands in the way.
-/

namespace RoadNames.Document

open Json

variable {format : Format} {item value : Json} {items : List Json} {segments : List Segment}

theorem fits_of_foldItems {k : Nat} {g h : Network}
    (hread : (Reading.foldItems (readItem format) k items g).outcome = .ok h) : ∀ item ∈ items, Fits format item := by
  induction items generalizing k g with
  | nil => simp
  | cons item rest ih =>
    rw [Reading.foldItems, Reading.outcome_bind] at hread
    obtain ⟨g', hitem, hrest⟩ := Reading.bind_eq_ok hread
    simpa using ⟨fits_of_readItem hitem, ih hrest⟩

theorem subjects_foldItems (hdescribes : List.Forall₂ (Describes format) items segments) {k : Nat} {g h : Network}
    (hread : (Reading.foldItems (readItem format) k items g).outcome = .ok h) :
    (Reading.foldItems (readItem format) k items g).warnings.map Warning.subject =
      (List.zipWith (missingEnds format) items segments).flatten := by
  induction hdescribes generalizing k g with
  | nil => rfl
  | cons hitem _ ih =>
    rw [Reading.foldItems, Reading.outcome_bind] at hread
    obtain ⟨g', hfirst, hrest⟩ := Reading.bind_eq_ok hread
    rw [Reading.foldItems, Reading.warnings_bind hfirst, List.map_append, subjects_readItem hitem hfirst, ih hrest]
    rfl

theorem badId_of_foldItems {k : Nat} {g : Network} {i : Item} {v : Json}
    (h : (Reading.foldItems (readItem format) k items g).outcome = .error (.data (.badId i v))) :
    ∃ j, k ≤ j ∧ i = itemOf format j := by
  induction items generalizing k g with
  | nil => cases h
  | cons item rest ih =>
    rw [Reading.foldItems, Reading.outcome_bind] at h
    rcases Reading.bind_eq_error h with hitem | ⟨g', _, hrest⟩
    · exact ⟨k, le_rfl, (badId_of_readItem hitem).1⟩
    · obtain ⟨j, hj, hi⟩ := ih hrest
      exact ⟨j, by omega, hi⟩

/-- Reading comes to the item at this place: all items before it can be read. -/
def ComesTo (format : Format) (items : List Json) (place : Nat) (item : Json) : Prop :=
  ∃ before after g, items = before ++ item :: after ∧ place = before.length ∧
    (readItems format before).outcome = .ok g

theorem ComesTo.outcome {place : Nat} (h : ComesTo format items place item) :
    ∃ g after, (readItems format items).outcome =
      (readItem format place item g).outcome >>= fun g =>
        (Reading.foldItems (readItem format) (place + 1) after g).outcome := by
  obtain ⟨before, after, g, rfl, rfl, hbefore⟩ := h
  refine ⟨g, after, ?_⟩
  unfold readItems at hbefore ⊢
  rw [outcome_foldItems_append, hbefore, Reading.ok_bind, Nat.zero_add, Reading.foldItems, Reading.outcome_bind]

theorem exists_comesTo {g : Network} (hread : (readItems format items).outcome = .ok g) (hitem : item ∈ items) :
    ∃ place, ComesTo format items place item := by
  obtain ⟨before, after, rfl⟩ := List.append_of_mem hitem
  unfold readItems at hread
  rw [outcome_foldItems_append] at hread
  obtain ⟨h, hbefore, _⟩ := Reading.bind_eq_ok hread
  exact ⟨before.length, before, after, h, rfl, rfl, hbefore⟩

theorem forall₂_reflects_iff (h : List.Forall₂ (Describes format) items segments) :
    List.Forall₂ (Reflects format) items segments ↔
      ∀ item ∈ items, (∀ value, GivesId format item value → ¬ value.IsMisread) ∧ ¬ HasTextEnd format item := by
  induction h with
  | nil => simp
  | cons hitem _ ih => simp [reflects_iff hitem, ih]

theorem itemOf_injective (format : Format) : Function.Injective (itemOf format) := by
  intro i j h
  cases format with
  | geojson => exact Item.feature.inj h
  | json => exact Item.segment.inj h

theorem ComesTo.refused {place : Nat} {e : CoercionError} (h : ComesTo format items place item)
    (hvalue : GivesId format item value) (he : value.toInt = .error e) (hfinite : ¬ value.IsInfinity) :
    (readItems format items).outcome = .error (.data (.badId (itemOf format place) value)) := by
  obtain ⟨g, after, houtcome⟩ := h.outcome
  obtain ⟨fields, attributes, rfl, hattributes, rfl⟩ := hvalue
  rw [houtcome, readItem_of_badId hattributes he hfinite]
  rfl

theorem ComesTo.unread {place : Nat} {v : Json} (h : ComesTo format items place item)
    (hvalue : GivesId format item value)
    (hrefused : (readItems format items).outcome = .error (.data (.badId (itemOf format place) v))) :
    (∃ e, value.toInt = .error e) ∧ ¬ value.IsInfinity := by
  obtain ⟨g, after, houtcome⟩ := h.outcome
  rw [houtcome] at hrefused
  rcases Reading.bind_eq_error hrefused with hitem | ⟨g', _, hlater⟩
  · obtain ⟨_, other, e, hother, he⟩ := badId_of_readItem hitem
    obtain rfl := hother.unique hvalue
    refine ⟨⟨e, he⟩, fun hinfinite => ?_⟩
    rw [readItem_of_overflows (.inl ⟨other, idGiven_of_givesId hvalue place, hinfinite⟩)] at hitem
    cases hitem
  · -- Later items are at later places.
    obtain ⟨j, hj, hplace⟩ := badId_of_foldItems hlater
    have := itemOf_injective format hplace
    omega

theorem readItems_reads {g : Network} (h : (readItems format items).outcome = .ok g) :
    List.Forall₂ (Describes format) items g.segments ∧
      (readItems format items).warnings.map Warning.subject =
        (List.zipWith (missingEnds format) items g.segments).flatten := by
  have hdescribes := (readItems_of_ok (fits_of_foldItems h) h).1
  exact ⟨hdescribes, subjects_foldItems hdescribes h⟩

theorem featuresOf_of_ok {given : Option Json} (h : (featuresOf given).outcome = .ok items) :
    featuresOf given = pure items := by
  have hwarnings : (featuresOf given).warnings = [] := by
    cases given with
    | none => rfl
    | some v =>
      cases htrue : v.isTrue with
      | false => simp [featuresOf, htrue, pure]
      | true => cases v <;> simp [featuresOf, htrue, pure, Reading.fail]
  show featuresOf given = ⟨[], .ok items⟩
  rw [← hwarnings, ← h]

theorem readNamed_of_items {document : Json} (h : itemsOf format document = .ok items) :
    Network.readNamed (.str format.name) document = readItems format items := by
  cases format with
  | json =>
    apply readNamed_of_outline
    show document.field? "segments" = _
    unfold itemsOf at h
    dsimp only at h
    split at h
    case h_1 listed hlisted => rw [hlisted, Except.ok.inj h]
    case h_2 => cases h
  | geojson =>
    unfold itemsOf at h
    dsimp only at h
    split at h
    case h_2 => cases h
    case h_1 htype =>
      show readFeatures document = _
      rw [readFeatures, htype, featuresOf_of_ok h, Reading.pure_bind]
      rfl

theorem exists_format_of_ok {name document : Json} {g : Network}
    (h : (Network.readNamed name document).outcome = .ok g) : ∃ format : Format, name = .str format.name := by
  unfold Network.readNamed at h
  split at h
  case h_1 => cases h
  case h_2 f hf => exact ⟨f, Format.eq_name_of_lookUp hf⟩

/-- What is read from a document is what the document says. -/
structure Faithful (name document : Json) : Prop where
  reflected : ∀ g, (Network.readNamed name document).outcome = .ok g →
    ∃ format items, name = .str format.name ∧ itemsOf format document = .ok items ∧
      List.Forall₂ (Reflects format) items g.segments ∧
      (Network.readNamed name document).warnings.map Warning.subject =
        (List.zipWith (missingEnds format) items g.segments).flatten
  /-- The first number that is no integer ends the reading, and it is the one that is reported. -/
  refused : ∀ format items place item value, name = .str format.name → itemsOf format document = .ok items →
    ComesTo format items place item → GivesId format item value → (∀ n, ¬ value.Denotes n) →
      (Network.readNamed name document).outcome = .error (.data (.badId (itemOf format place) value))

theorem name_injective {format other : Format} (h : Json.str format.name = .str other.name) : format = other := by
  cases format <;> cases other <;> first | rfl | exact absurd (str.inj h) (by decide)

theorem Faithful.ids {document : Json} {place : Nat} (h : Faithful (.str format.name) document)
    (hitems : itemsOf format document = .ok items) (hcomes : ComesTo format items place item)
    (hvalue : GivesId format item value) : ¬ value.IsMisread ∧ ¬ value.IsInfinity := by
  have hunread : (∀ n, ¬ value.Denotes n) → (∃ e, value.toInt = .error e) ∧ ¬ value.IsInfinity := fun hnone =>
    hcomes.unread hvalue (readNamed_of_items hitems ▸
      h.refused format items place item value rfl hitems hcomes hvalue hnone)
  constructor
  · intro hmisread
    obtain ⟨⟨e, he⟩, _⟩ := hunread hmisread.not_denotes
    obtain ⟨n, hn⟩ := hmisread.exists_toInt
    rw [hn] at he
    cases he
  · exact fun hinfinite => (hunread hinfinite.not_denotes).2 hinfinite

theorem Faithful.ends {document : Json} {g : Network} (h : Faithful (.str format.name) document)
    (hitems : itemsOf format document = .ok items)
    (hg : (Network.readNamed (.str format.name) document).outcome = .ok g) :
    ∀ item ∈ items, ¬ HasTextEnd format item := by
  obtain ⟨other, items', hname, hitems', hreflects, _⟩ := h.reflected g hg
  obtain rfl := name_injective hname
  obtain rfl := Except.ok.inj (hitems.symm.trans hitems')
  rw [readNamed_of_items hitems] at hg
  exact fun item hitem => ((forall₂_reflects_iff (readItems_reads hg).1).mp hreflects item hitem).2

/-- A document is read as what it says just if no item that reading comes to gives a truth value, a fraction or an
infinity as its number and, in case the document can be read, no end is a text that begins with two digits. -/
theorem readNamed_faithful_iff (name document : Json) :
    Faithful name document ↔
      ∀ format items, name = .str format.name → itemsOf format document = .ok items →
        (∀ place item value, ComesTo format items place item → GivesId format item value →
          ¬ value.IsMisread ∧ ¬ value.IsInfinity) ∧
        ((∃ g, (Network.readNamed name document).outcome = .ok g) → ∀ item ∈ items, ¬ HasTextEnd format item) := by
  constructor
  · rintro hfaithful format items rfl hitems
    exact ⟨fun place item value hcomes hvalue => hfaithful.ids hitems hcomes hvalue,
      fun ⟨g, hg⟩ => hfaithful.ends hitems hg⟩
  · intro h
    constructor
    · intro g hg
      obtain ⟨format, rfl⟩ := exists_format_of_ok hg
      cases hitems : itemsOf format document with
      | error e =>
        rw [outcome_readNamed, hitems] at hg
        cases hg
      | ok items =>
        obtain ⟨hids, hends⟩ := h format items rfl hitems
        have hreads := readNamed_of_items hitems
        rw [hreads] at hg ⊢
        obtain ⟨hdescribes, hwarned⟩ := readItems_reads hg
        refine ⟨format, items, rfl, hitems, (forall₂_reflects_iff hdescribes).mpr fun item hitem => ?_, hwarned⟩
        obtain ⟨place, hcomes⟩ := exists_comesTo hg hitem
        exact ⟨fun value hvalue => (hids place item value hcomes hvalue).1, hends ⟨g, hreads ▸ hg⟩ item hitem⟩
    · rintro format items place item value rfl hitems hcomes hvalue hnone
      obtain ⟨hmisread, hinfinite⟩ := (h format items rfl hitems).1 place item value hcomes hvalue
      obtain ⟨e, he⟩ := exists_toInt_error hnone hmisread
      rw [readNamed_of_items hitems]
      exact hcomes.refused hvalue he hinfinite

def lone (fields : Fields) : Json := obj [("segments", arr [obj fields])]

/-- A segment is read under a number that it does not give, and it starts at a place that it does not give: the
numbers 1.5 and true become 1, and the text 12 becomes the place at 1 degree north and 2 degrees east. -/
theorem readNamed_not_faithful :
    ((Network.readNamed (.str "json") (lone [("id", float 1.5)])).outcome.toOption.map Network.ids = some [1] ∧
        ¬ Faithful (.str "json") (lone [("id", float 1.5)])) ∧
      ((Network.readNamed (.str "json") (lone [("id", bool true)])).outcome.toOption.map Network.ids = some [1] ∧
        ¬ Faithful (.str "json") (lone [("id", bool true)])) ∧
      ((Network.readNamed (.str "json") (lone [("id", int 1), ("start", str "12")])).outcome.toOption.map
          (fun g => g.segments.map fun s => s.start.map fun p => (p.lat == 1, p.lon == 2)) =
            some [some (true, true)] ∧
        ¬ Faithful (.str "json") (lone [("id", int 1), ("start", str "12")])) := by
  have hhalf : (float 1.5).IsMisread := by
    refine ⟨⟨false, 0x18000000000000, -52, false⟩, by decide +kernel, fun n hn => ?_⟩
    have hdouble : ((2 * n : ℤ) : ℚ) = (3 : ℤ) := by
      push_cast
      rw [← hn]
      norm_num [Decimal.Binary.value, Decimal.Binary.magnitude]
    have : 2 * n = 3 := by exact_mod_cast hdouble
    omega
  have hmisread : ∀ value : Json, value.IsMisread → ¬ Faithful (.str "json") (lone [("id", value)]) :=
    fun value hvalue (hfaithful : Faithful (.str Format.json.name) _) =>
      (hfaithful.ids rfl ⟨[], [], _, rfl, rfl, rfl⟩ ⟨_, [], rfl, by simp, rfl⟩).1 hvalue
  have hdigits : BeginsWithDigits (str "12") := ⟨'1', '2', [], by decide, by decide, by decide⟩
  refine ⟨⟨by decide +kernel, hmisread _ hhalf⟩, ⟨by decide +kernel, hmisread _ trivial⟩, by decide +kernel, ?_⟩
  intro (hfaithful : Faithful (.str Format.json.name) _)
  cases hg : (Network.readNamed (.str "json") (lone [("id", int 1), ("start", str "12")])).outcome with
  | error e =>
    have hread : (Network.readNamed (.str "json")
        (lone [("id", int 1), ("start", str "12")])).outcome.toOption.isSome = true := by decide +kernel
    rw [hg] at hread
    cases hread
  | ok g => exact hfaithful.ends rfl hg _ (List.mem_singleton.mpr rfl) ⟨_, rfl, .inl hdigits⟩

end RoadNames.Document
