import AgentDeck.Json.Read

/-!
Code reviews (pull requests) as the forge reports them: a number, a title, a link and a
state. The state is open, draft, merged or closed, stored by its lower-case name.
-/

namespace AgentDeck

/-- Where a review stands. -/
inductive ReviewState where
  | open
  | draft
  | merged
  | closed
  deriving DecidableEq, Repr, Inhabited

namespace ReviewState

/-- Every state, in declaration order. -/
def all : List ReviewState := [.open, .draft, .merged, .closed]

/-- The stored name. -/
def name : ReviewState → String
  | .open => "open"
  | .draft => "draft"
  | .merged => "merged"
  | .closed => "closed"

/-- The state of a stored name. -/
def ofName? (s : String) : Option ReviewState := all.find? (·.name == s)

@[simp] theorem ofName?_name (t : ReviewState) : ofName? t.name = some t := by
  cases t <;> rfl

/-- States are stored as their names. -/
def shape : Json.Shape := .tags (all.map name)

/-- The state as JSON. -/
def toJson (t : ReviewState) : Json := .str t.name

/-- The state of a JSON name. -/
def ofJson? (j : Json) : Option ReviewState := j.asString? >>= ofName?

end ReviewState

/-- A review of the branch checked out somewhere. -/
structure Review where
  number : Nat
  title : String
  url : String
  state : ReviewState
  deriving DecidableEq, Repr, Inhabited

namespace Review

/-- Stored form: all four fields are required, the number is unsigned 64-bit. -/
def shape : Json.Shape :=
  .record "ReviewInfo"
    [("number", .unsigned "u64" Json.u64Max, none), ("title", .text "a string", none),
     ("url", .text "a string", none), ("state", ReviewState.shape, none)]

/-- The review as JSON. -/
def toJson (r : Review) : Json :=
  .obj [("number", .ofNat r.number), ("title", .str r.title), ("url", .str r.url),
    ("state", r.state.toJson)]

/-- The review stored in a JSON object of its shape. -/
def ofJson? (j : Json) : Option Review := do
  let number ← (j.field? "number") >>= Json.asNat?
  let title ← (j.field? "title") >>= Json.asString?
  let url ← (j.field? "url") >>= Json.asString?
  let state ← (j.field? "state") >>= ReviewState.ofJson?
  return { number, title, url, state }

end Review

end AgentDeck
