import AgentDeck.Json.Read

/-!
What a session is doing, as last seen: running, waiting for an answer, idle, or failed.

Each status has a lower-case name, which is how it is stored and shown, and a one-character
glyph for the dashboard. Reading a name is the inverse of writing one (`ofName?_name`).
-/

namespace AgentDeck

/-- What a session is doing. -/
inductive Status where
  | running
  | waiting
  | idle
  | error
  deriving DecidableEq, Repr, Inhabited

namespace Status

/-- Every status, in declaration order. -/
def all : List Status := [.running, .waiting, .idle, .error]

/-- The stored and displayed name. -/
def name : Status → String
  | .running => "running"
  | .waiting => "waiting"
  | .idle => "idle"
  | .error => "error"

/-- The status of a stored name. -/
def ofName? (s : String) : Option Status := all.find? (·.name == s)

@[simp] theorem ofName?_name (t : Status) : ofName? t.name = some t := by
  cases t <;> rfl

/-- The dashboard glyph of a session row. -/
def glyph : Status → String
  | .running => "●"
  | .waiting => "!"
  | .idle => "○"
  | .error => "✕"

/-- Statuses are stored as their names. -/
def shape : Json.Shape := .tags (all.map name)

/-- The status as JSON. -/
def toJson (t : Status) : Json := .str t.name

/-- The status of a JSON name. -/
def ofJson? (j : Json) : Option Status := j.asString? >>= ofName?

end Status

end AgentDeck
