import AgentDeck.Json.Read
import AgentDeck.Text.Case
import AgentDeck.Text.Search

/-!
The coding agents a session can run, and the plain shell.

A command line names its tool when its lower-case text contains the tool's name; the names
are tried in a fixed order (`claude`, `gemini`, `opencode` or `open-code`, `codex`), and a
command that names none runs a shell.
-/

namespace AgentDeck

/-- The program a session runs. -/
inductive Tool where
  | claude
  | gemini
  | openCode
  | codex
  | shell
  deriving DecidableEq, Repr, Inhabited

namespace Tool

/-- Every tool, in declaration order. -/
def all : List Tool := [.claude, .gemini, .openCode, .codex, .shell]

/-- The stored and displayed name. -/
def name : Tool → String
  | .claude => "claude"
  | .gemini => "gemini"
  | .openCode => "opencode"
  | .codex => "codex"
  | .shell => "shell"

/-- The tool of a stored name. -/
def ofName? (s : String) : Option Tool := all.find? (·.name == s)

@[simp] theorem ofName?_name (t : Tool) : ofName? t.name = some t := by
  cases t <;> rfl

/-- The tool a command line starts, judged by the names it contains. -/
def ofCommand (cmd : String) : Tool :=
  let lower := Text.fold cmd.toList
  let has (pat : String) := Text.occurs pat.toList lower
  if has "claude" then .claude
  else if has "gemini" then .gemini
  else if has "opencode" || has "open-code" then .openCode
  else if has "codex" then .codex
  else .shell

/-- Tools are stored as their names. -/
def shape : Json.Shape := .tags (all.map name)

/-- The tool as JSON. -/
def toJson (t : Tool) : Json := .str t.name

/-- The tool of a JSON name. -/
def ofJson? (j : Json) : Option Tool := j.asString? >>= ofName?

end Tool

end AgentDeck
