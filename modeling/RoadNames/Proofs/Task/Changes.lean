import Mathlib.Data.List.Forall2
import RoadNames.Proofs.Task.Payload
set_option autoImplicit false

namespace RoadNames

def TagChange.apply (tags : Json.Fields) (c : TagChange) : Json.Fields :=
  match c.kind with
  | .add | .update => Table.set tags c.key c.value
  | .remove => Table.remove tags c.key

namespace Change

def apply (id : Int) (tags : Json.Fields) (c : Change) : Json.Fields :=
  if c.id = id then c.tags.foldl TagChange.apply tags else tags

theorem foldl_apply_of_ne {id : Int} {changes : List Change} (h : ∀ c ∈ changes, c.id ≠ id)
    (tags : Json.Fields) : changes.foldl (apply id) tags = tags := by
  induction changes with
  | nil => rfl
  | cons c rest ih =>
    have hc : apply id tags c = tags := if_neg (h c (by simp))
    rw [List.foldl_cons, hc, ih fun d hd => h d (by simp [hd])]

theorem apply_setTag (id : Int) (tags : Json.Fields) (key : String) (value : Json) :
    apply id tags (.setTag id key value) = Table.set tags key value := by
  simp [apply, setTag, TagChange.apply]

theorem get?_foldl_setTag {id : Int} {ids : List Int} (h : id ∈ ids) (key : String) (value : Json)
    (tags : Json.Fields) :
    Table.get? ((ids.map fun i => setTag i key value).foldl (apply id) tags) key = some value := by
  induction ids generalizing tags with
  | nil => cases h
  | cons i rest ih =>
    by_cases hrest : id ∈ rest
    · exact ih hrest _
    · obtain rfl : id = i := (List.mem_cons.mp h).resolve_right hrest
      have hothers : ∀ c ∈ rest.map fun j => setTag j key value, c.id ≠ id := by
        intro c hc
        obtain ⟨j, hj, rfl⟩ := List.mem_map.mp hc
        exact fun hid => hrest (hid ▸ hj)
      rw [List.map_cons, List.foldl_cons, foldl_apply_of_ne hothers, apply_setTag, Table.get?_set,
        if_pos rfl]

end Change

/-- The tags of elements, by the numbers of the elements. -/
abbrev Elements := Table Int Json.Fields

namespace Elements

/-- One element with other tags. An element that is not there begins with the tags that are given for this case; if
none are given, it stays away. -/
def modify? (absent : Option Json.Fields) (es : Elements) (id : Int)
    (f : Json.Fields → Option Json.Fields) : Option Elements :=
  match (Table.get? es id).or absent with
  | none => some es
  | some tags => (f tags).map (Table.set es id)

def modify (absent : Option Json.Fields) (es : Elements) (id : Int) (f : Json.Fields → Json.Fields) : Elements :=
  match (Table.get? es id).or absent with
  | none => es
  | some tags => Table.set es id (f tags)

theorem modify?_some {f : Json.Fields → Option Json.Fields} {g : Json.Fields → Json.Fields}
    (h : ∀ tags, f tags = some (g tags)) (absent : Option Json.Fields) (es : Elements) (id : Int) :
    es.modify? absent id f = some (es.modify absent id g) := by
  unfold modify? modify
  cases (Table.get? es id).or absent with
  | none => rfl
  | some tags => simp [h]

end Elements

def Change.execute (absent : Option Json.Fields) (es : Elements) (c : Change) : Elements :=
  match c.kind with
  | .add => Table.set es c.id (c.tags.foldl TagChange.apply [])
  | .update => es.modify absent c.id fun tags => c.tags.foldl TagChange.apply tags
  | .remove => Table.remove es c.id

namespace Operation

def unset? (tags : Json.Fields) : Json → Option Json.Fields
  | .str key => some (Table.remove tags key)
  | _ => none

/-- The tags after one entry of an operation: all that is given is set, or all that is listed is taken away. An
entry of any other form cannot be carried out. -/
def runEntry? (tags : Json.Fields) (entry : Json) : Option Json.Fields :=
  match entry.field? "operation", entry.field? "data" with
  | some (.str "setTags"), some (.obj given) => some (Table.setAll tags given)
  | some (.str "unsetTags"), some (.arr keys) => keys.foldlM unset? tags
  | _, _ => none

/-- The elements after an operation, which names its element and its entries under its data. -/
def run? (absent : Option Json.Fields) (es : Elements) (op : Json) : Option Elements :=
  match op.field? "operationType", (op.field? "data").bind (·.field? "id"),
    (op.field? "data").bind (·.field? "operations") with
  | some (.str "modifyElement"), some (.int id), some (.arr entries) =>
    es.modify? absent id fun tags => entries.foldlM runEntry? tags
  | some (.str "removeElement"), some (.int id), _ => some (Table.remove es id)
  | _, _, _ => none

/-- An operation is about the element of a change and does away with it if the change does; there is an entry for
each tag. -/
structure AsksFor (c : Change) (op : Operation) : Prop where
  id : op.id = c.id
  action : op.action = if c.kind = .remove then .remove else .modify
  entries : op.tags.length = c.tags.length

theorem asksFor_asked (c : Change) : AsksFor c c.asked := ⟨rfl, rfl, List.length_map _⟩

theorem runEntry?_asked (tags : Json.Fields) (t : TagChange) :
    runEntry? tags (tagJson t.asked) = some (t.apply tags) := by
  obtain ⟨kind, key, value⟩ := t
  cases kind with
  | add => rfl
  | update => rfl
  | remove => rfl

theorem runEntries_asked (changes : List TagChange) (tags : Json.Fields) :
    ((changes.map TagChange.asked).map tagJson).foldlM runEntry? tags =
      some (changes.foldl TagChange.apply tags) := by
  simp only [List.foldlM_map, runEntry?_asked]
  exact List.foldlM_pure

theorem run?_asked {c : Change} (h : c.kind ≠ .add) (absent : Option Json.Fields) (es : Elements) :
    run? absent es c.asked.toJson = some (c.execute absent es) := by
  obtain ⟨id, kind, tags⟩ := c
  cases kind with
  | add => exact absurd rfl h
  | update => exact Elements.modify?_some (runEntries_asked tags) absent es id
  | remove => rfl

theorem foldlM_run?_asked {changes : List Change} (h : ∀ c ∈ changes, c.kind ≠ .add)
    (absent : Option Json.Fields) (es : Elements) :
    ((changes.map Change.asked).map toJson).foldlM (run? absent) es =
      some (changes.foldl (Change.execute absent) es) := by
  induction changes generalizing es with
  | nil => rfl
  | cons c rest ih =>
    rw [List.map_cons, List.map_cons, List.foldlM_cons, run?_asked (h c (by simp))]
    exact ih (fun d hd => h d (by simp [hd])) _

/-- Changes cannot be made into operations just if one of them adds an element. Else there is one operation for each
change, in order, and the operations, read as documents, leave any elements as the changes leave them, whatever
becomes of changes to elements that are not there. -/
theorem cooperativeWork_executes (changes : List Change) :
    (∃ c ∈ changes, c.kind = .add) ∧ cooperativeWork changes = .error (.unsupportedChange .add) ∨
      (¬ ∃ c ∈ changes, c.kind = .add) ∧ ∃ ops, cooperativeWork changes = .ok ops ∧
        List.Forall₂ AsksFor changes ops ∧
        ∀ absent es, (ops.map toJson).foldlM (run? absent) es =
          some (changes.foldl (Change.execute absent) es) := by
  rw [cooperativeWork_eq]
  by_cases hadd : ∃ c ∈ changes, c.kind = .add
  · exact .inl ⟨hadd, if_pos hadd⟩
  · have hkinds : ∀ c ∈ changes, c.kind ≠ .add := fun c hc hkind => hadd ⟨c, hc, hkind⟩
    refine .inr ⟨hadd, changes.map Change.asked, if_neg hadd, ?_, foldlM_run?_asked hkinds⟩
    exact List.forall₂_map_right_iff.mpr (List.forall₂_same.mpr fun c _ => asksFor_asked c)

example :
    [Change.unsetTag 5 "name", .setTag 5 "name" (.str "Elm Street"), ⟨6, .remove, []⟩, .unsetTag 6 "name"].foldl
        (Change.execute none) [(5, [("name", .str "Elm Stret"), ("lanes", .int 2)]), (6, [])] =
      [(5, [("lanes", .int 2), ("name", .str "Elm Street")])] := by
  rfl

end Operation

end RoadNames
