import RoadNames.Proofs.Task.Payload
set_option autoImplicit false

namespace RoadNames

/-- The coordinates are equal as numbers, and the descriptions are the same. -/
def TaskPoint.agrees (p q : TaskPoint) : Bool :=
  (p.place.lat == q.place.lat && p.place.lon == q.place.lon) && p.description = q.description

theorem TaskPoint.same_eq_agrees (p : TaskPoint) : p.same = p.agrees := by
  funext q
  rw [same, agrees, Location.same_eq]

def TagChange.entry (t : TagChange) : Json :=
  if t.kind = .remove then .obj [("operation", .str "unsetTags"), ("data", .arr [.str t.key])]
  else .obj [("operation", .str "setTags"), ("data", .obj [(t.key, t.value)])]

/-- The document of the operation that a change becomes. -/
def Change.document (c : Change) : Json :=
  .obj [("operationType", .str (if c.kind = .remove then "removeElement" else "modifyElement")),
    ("data", .obj [("id", .int c.id), ("operations", .arr (c.tags.map TagChange.entry))])]

theorem Change.toJson_asked (c : Change) : c.asked.toJson = c.document := by
  have hentry : ∀ t : TagChange, Operation.tagJson t.asked = t.entry := fun t => by
    rw [TagChange.asked, TagChange.entry]
    split <;> rfl
  have hentries : (c.tags.map TagChange.asked).map Operation.tagJson = c.tags.map TagChange.entry := by
    rw [List.map_map]
    exact List.map_congr_left fun t _ => hentry t
  rw [Operation.toJson, asked, document, hentries]
  split <;> rfl

namespace Task

inductive Request where
  | addPoint (p : TaskPoint)
  | setPoint (place : Location)
  | setPoints (places : List Location)
  | setCooperativeWork (changes : List Change)
  | generate (parent : Int)

inductive Response where
  | done
  | refused (error : TaskError)
  | generated (outcome : Except PayloadError Json)

namespace Request

def points : Request → List TaskPoint
  | addPoint p => [p]
  | setPoint place => [⟨place, none⟩]
  | setPoints places => places.map fun place => ⟨place, none⟩
  | setCooperativeWork _ | generate _ => []

/-- The changes that become the operations, which they do unless one of them adds an element. -/
def work? : Request → Option (List Change)
  | setCooperativeWork changes => if ∃ c ∈ changes, c.kind = .add then none else some changes
  | addPoint _ | setPoint _ | setPoints _ | generate _ => none

end Request

def respond (t : Task) : Request → Response × Task
  | .addPoint p => (.done, t.addPoint p)
  | .setPoint place => (.done, t.addPlaces [place])
  | .setPoints places => (.done, t.addPlaces places)
  | .setCooperativeWork changes =>
    match t.setCooperativeWork changes with
    | .ok u => (.done, u)
    | .error e => (.refused e, t)
  | .generate parent => (.generated (t.payload parent), t)

def responses (t : Task) : List Request → List Response
  | [] => []
  | request :: later => (t.respond request).1 :: (t.respond request).2.responses later

def after (t : Task) (requests : List Request) : Task :=
  requests.foldl (fun t request => (t.respond request).2) t

/-- The task as it is made, to which nothing has been added. -/
def untouched (t : Task) : Task := { t with points := [], operations := [] }

def lastWork (requests : List Request) : List Change := (requests.filterMap Request.work?).getLast?.getD []

/-- The task with the points that were added, each where it was added first and no other that agrees with it, and
with what the last changes ask for. -/
def standing (t : Task) (requests : List Request) : Task :=
  { t with
    points := (requests.flatMap Request.points).eraseDupsBy TaskPoint.agrees
    operations := (lastWork requests).map Change.asked }

theorem merge_eq_loop (there added : List TaskPoint) :
    merge there added = List.eraseDupsBy.loop TaskPoint.agrees added there.reverse := by
  induction added generalizing there with
  | nil => simp [merge, List.eraseDupsBy.loop]
  | cons p added ih =>
    rw [merge_cons, ih, List.eraseDupsBy.loop, TaskPoint.same_eq_agrees, ← List.any_reverse]
    cases there.reverse.any p.agrees <;> simp

theorem merge_nil (added : List TaskPoint) : merge [] added = added.eraseDupsBy TaskPoint.agrees :=
  merge_eq_loop [] added

theorem pairwise_merge {there : List TaskPoint} (h : there.Pairwise fun p q => q.agrees p = false)
    (added : List TaskPoint) : (merge there added).Pairwise fun p q => q.agrees p = false := by
  induction added generalizing there with
  | nil => exact h
  | cons p added ih =>
    rw [merge_cons]
    split
    case isTrue => exact ih h
    case isFalse hnew =>
      refine ih (List.pairwise_append.mpr ⟨h, List.pairwise_singleton _ _, fun q hq r hr => ?_⟩)
      obtain rfl := List.mem_singleton.mp hr
      rw [← TaskPoint.same_eq_agrees, ← Bool.not_eq_true]
      exact fun hsame => hnew (List.any_eq_true.mpr ⟨q, hq, hsame⟩)

theorem respond_setCooperativeWork (t : Task) (changes : List Change) :
    t.respond (.setCooperativeWork changes) =
      if ∃ c ∈ changes, c.kind = .add then (.refused (.unsupportedChange .add), t)
      else (.done, { t with operations := changes.map Change.asked }) := by
  rw [respond, setCooperativeWork, Operation.cooperativeWork_eq]
  by_cases hadd : ∃ c ∈ changes, c.kind = .add
  · simp only [if_pos hadd]
  · simp only [if_neg hadd]

theorem respond_task (t : Task) (request : Request) :
    (t.respond request).2 =
      { t with
        points := merge t.points request.points
        operations := (request.work?.map (·.map Change.asked)).getD t.operations } := by
  cases request with
  | addPoint p => exact addPoints_eq_merge t [p]
  | setPoint place => exact addPoints_eq_merge t _
  | setPoints places => exact addPoints_eq_merge t _
  | setCooperativeWork changes =>
    rw [respond_setCooperativeWork, Request.work?]
    split <;> rfl
  | generate parent => rfl

theorem after_eq (t : Task) (requests : List Request) :
    t.after requests =
      { t with
        points := merge t.points (requests.flatMap Request.points)
        operations := ((requests.filterMap Request.work?).getLast?.map (·.map Change.asked)).getD t.operations } := by
  induction requests generalizing t with
  | nil => rfl
  | cons request later ih =>
    have hpoints : merge (merge t.points request.points) (later.flatMap Request.points) =
        merge t.points ((request :: later).flatMap Request.points) := by
      rw [merge, merge, ← List.foldl_append, ← merge, List.flatMap_cons]
    have hoperations :
        ((later.filterMap Request.work?).getLast?.map (·.map Change.asked)).getD
            ((request.work?.map (·.map Change.asked)).getD t.operations) =
          (((request :: later).filterMap Request.work?).getLast?.map (·.map Change.asked)).getD t.operations := by
      cases hwork : request.work? with
      | none => rw [List.filterMap_cons_none hwork, Option.map_none, Option.getD_none]
      | some changes =>
        rw [List.filterMap_cons_some hwork, List.getLast?_cons]
        cases (later.filterMap Request.work?).getLast? <;> rfl
    rw [after, List.foldl_cons, ← after, ih, respond_task]
    simp only [hpoints, hoperations]

theorem after_untouched (t : Task) (requests : List Request) : t.untouched.after requests = t.standing requests := by
  rw [after_eq, standing, lastWork, ← merge_nil]
  cases (requests.filterMap Request.work?).getLast? <;> rfl

theorem responses_append (t : Task) (earlier later : List Request) :
    t.responses (earlier ++ later) = t.responses earlier ++ (t.after earlier).responses later := by
  induction earlier generalizing t with
  | nil => rfl
  | cons request earlier ih => exact congrArg (_ :: ·) (ih _)

/-- A task becomes what its history says: its points are those that were added, in the order in which each was added
first, and no two of them agree; its operations are what the last changes ask for that were not refused, and changes
are refused just if one of them adds an element. Asking for a payload changes nothing, whether or not there is one, so
that it is the same when it is asked for again and all that follows is as if it had not been asked for. -/
theorem history_of_task (t : Task) (earlier later : List Request) (parent : Int) :
    t.untouched.after earlier = t.standing earlier ∧
      (t.standing earlier).points.Pairwise (fun p q => q.agrees p = false) ∧
      (t.standing earlier).operations.map Operation.toJson = (lastWork earlier).map Change.document ∧
      (∀ changes, ((t.standing earlier).respond (.setCooperativeWork changes)).1 =
        if ∃ c ∈ changes, c.kind = .add then .refused (.unsupportedChange .add) else .done) ∧
      t.untouched.after (earlier ++ .generate parent :: later) = t.untouched.after (earlier ++ later) ∧
      t.untouched.responses (earlier ++ .generate parent :: .generate parent :: later) =
        t.untouched.responses earlier ++ .generated ((t.standing earlier).payload parent) ::
          .generated ((t.standing earlier).payload parent) :: (t.standing earlier).responses later := by
  refine ⟨after_untouched t earlier, ?_, ?_, fun changes => ?_, ?_, ?_⟩
  · rw [standing, ← merge_nil]
    exact pairwise_merge .nil _
  · rw [standing, List.map_map]
    exact List.map_congr_left fun c _ => c.toJson_asked
  · rw [respond_setCooperativeWork]
    split <;> rfl
  · rw [after_untouched, after_untouched, standing, standing, lastWork, lastWork]
    simp only [List.flatMap_append, List.filterMap_append, List.flatMap_cons, List.filterMap_cons, Request.points,
      Request.work?, List.nil_append]
  · rw [responses_append, after_untouched]
    rfl

end Task

end RoadNames
