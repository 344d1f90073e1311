import AgentDeck.Forge.Review

/-!
Tasks: work items, each possibly linked to the session that works on it.

A task moves with the review of its session: an open or draft review puts it in review, a
merged one makes it done. A closed review moves nothing, since it may be reopened or
replaced, and a done task stays done (`reviewStep_done`).
-/

namespace AgentDeck

/-- How far a task has come. -/
inductive TaskStatus where
  | backlog
  | running
  | inReview
  | done
  deriving DecidableEq, Repr, Inhabited

namespace TaskStatus

/-- Every status, in declaration order. -/
def all : List TaskStatus := [.backlog, .running, .inReview, .done]

/-- The stored name. -/
def name : TaskStatus → String
  | .backlog => "backlog"
  | .running => "running"
  | .inReview => "in_review"
  | .done => "done"

/-- The status of a stored name. -/
def ofName? (s : String) : Option TaskStatus := all.find? (·.name == s)

@[simp] theorem ofName?_name (t : TaskStatus) : ofName? t.name = some t := by
  cases t <;> rfl

/-- Statuses are stored as their names. -/
def shape : Json.Shape := .tags (all.map name)

/-- The status as JSON. -/
def toJson (t : TaskStatus) : Json := .str t.name

/-- The status of a JSON name. -/
def ofJson? (j : Json) : Option TaskStatus := j.asString? >>= ofName?

end TaskStatus

/-- A work item. -/
structure Task where
  id : String
  title : String
  /-- The session working on it. -/
  sessionId : Option String := none
  status : TaskStatus := .backlog
  /-- Its session was deleted; the link is kept so that an undo can restore it. -/
  orphaned : Bool := false
  deriving DecidableEq, Repr, Inhabited

namespace Task

/-- The task is linked to the session `sid`. -/
def isLinkedTo (t : Task) (sid : String) : Bool := t.sessionId == some sid

/-- The status a review in state `r` moves the task to, if it moves. -/
def reviewStep (t : Task) (r : ReviewState) : Option TaskStatus :=
  let next? : Option TaskStatus :=
    match r with
    | .open | .draft => some .inReview
    | .merged => some .done
    | .closed => none
  match next? with
  | some next => if next ≠ t.status ∧ t.status ≠ .done then some next else none
  | none => none

theorem reviewStep_done (t : Task) (r : ReviewState) (h : t.status = .done) :
    t.reviewStep r = none := by
  cases r <;> simp [reviewStep, h]

/-- Stored form: `id` and `title` are required. -/
def shape : Json.Shape :=
  .record "Task"
    [("id", .text "a string", none), ("title", .text "a string", none),
     ("session_id", .opt (.text "a string"), some .null),
     ("status", TaskStatus.shape, some (.str "backlog")),
     ("orphaned", .flag, some (.bool false))]

/-- The task as JSON. -/
def toJson (t : Task) : Json :=
  .obj [("id", .str t.id), ("title", .str t.title),
    ("session_id", Json.ofOption .str t.sessionId), ("status", t.status.toJson),
    ("orphaned", .bool t.orphaned)]

/-- The task stored in a JSON object of its shape. -/
def ofJson? (j : Json) : Option Task := do
  let id ← (j.field? "id") >>= Json.asString?
  let title ← (j.field? "title") >>= Json.asString?
  let sid ← j.field? "session_id"
  let sessionId := sid.asString?
  let status ← (j.field? "status") >>= TaskStatus.ofJson?
  let orphaned ← (j.field? "orphaned") >>= Json.asBool?
  return { id, title, sessionId, status, orphaned }

end Task

end AgentDeck
