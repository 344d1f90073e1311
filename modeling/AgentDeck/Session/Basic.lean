import AgentDeck.Agent.Tool
import AgentDeck.Session.Status
import AgentDeck.Time.Stamp
import AgentDeck.Fs.Path

/-!
Sessions: one agent or shell at work in a project directory, shown on the dashboard under a
group and run in a multiplexer pane named after the session.

A new session's group comes from its directory: below the home directory it is the first
two names under home, elsewhere the first name of the path (`groupOfPath`). A fork runs
its parent's tool and command in the parent's group and remembers the parent.
-/

namespace AgentDeck

open AgentDeck.Time

/-- The git worktree a session was started in. -/
structure Worktree where
  branch : String
  repoRoot : String
  worktreePath : String
  deriving DecidableEq, Repr, Inhabited

/-- A session. -/
structure Session where
  id : String
  title : String
  projectPath : String
  groupPath : String := ""
  /-- The session this one was forked from. -/
  parentId : Option String := none
  command : String := ""
  tool : Tool := .shell
  status : Status := .idle
  createdAt : Stamp
  lastAccessedAt : Option Stamp := none
  /-- Conversation the claude agent can resume. -/
  claudeConversation : Option String := none
  /-- Conversation the gemini agent can resume. -/
  geminiConversation : Option String := none
  worktree : Option Worktree := none
  deriving DecidableEq, Repr, Inhabited

/-- Multiplexer panes of sessions are named with this lead. -/
def paneLead : String := "deckhand_"

namespace Session

/-- The multiplexer pane name of the session with id `id`. -/
def paneNameOf (id : String) : String := paneLead ++ id

/-- The session id a pane name stands for, if it is one of ours. -/
def idOfPaneName? (name : String) : Option String :=
  (Text.dropLead paneLead.toList name.toList).map String.ofList

theorem idOfPaneName?_paneNameOf (id : String) : idOfPaneName? (paneNameOf id) = some id := by
  simp [idOfPaneName?, paneNameOf, Text.dropLead, List.isPrefixOf_iff_prefix]

/-- The pane name of the session. -/
def paneName (s : Session) : String := paneNameOf s.id

/-- Where git questions about the session are asked: its worktree, else its project. -/
def gitDir (s : Session) : String :=
  match s.worktree with
  | some w => w.worktreePath
  | none => s.projectPath

/-- The session was forked from another. -/
def isFork (s : Session) : Bool := s.parentId.isSome

/-- The session's tool has a conversation it can resume. -/
def hasResumeId (s : Session) : Bool :=
  match s.tool with
  | .claude => s.claudeConversation.isSome
  | .gemini => s.geminiConversation.isSome
  | _ => false

/-- The group a project directory belongs to, seen from the home directory `home`. -/
def groupOfPath (home path : String) : String :=
  match Path.stripBase? path home with
  | some rest => "/".intercalate ((Path.names rest).take 2)
  | none => ((Path.names (Path.components path)).head?).getD ""

/-- A new idle shell session. -/
def create (id title path home : String) (now : Stamp) : Session :=
  { id, title, projectPath := path, groupPath := groupOfPath home path, createdAt := now }

/-- A new session forked from `parent`: its tool, command and group, a new directory. -/
def forkOf (parent : Session) (id title path home : String) (now : Stamp) : Session :=
  { create id title path home now with
    groupPath := parent.groupPath, command := parent.command, tool := parent.tool,
    parentId := some parent.id }

/-- Stored form of a worktree: all fields required. -/
def worktreeShape : Json.Shape :=
  .record "WorktreeInfo"
    [("branch", .text "a string", none), ("repo_root", .text "path string", none),
     ("worktree_path", .text "path string", none)]

/-- Stored form: `id`, `title`, `project_path` and `created_at` are required. -/
def shape : Json.Shape :=
  .record "Instance"
    [("id", .text "a string", none), ("title", .text "a string", none),
     ("project_path", .text "path string", none), ("group_path", .text "a string", some (.str "")),
     ("parent_session_id", .opt (.text "a string"), some .null),
     ("command", .text "a string", some (.str "")),
     ("tool", Tool.shape, some (.str "shell")), ("status", Status.shape, some (.str "idle")),
     ("created_at", Stamp.shape, none), ("last_accessed_at", .opt Stamp.shape, some .null),
     ("claude_session_id", .opt (.text "a string"), some .null),
     ("gemini_session_id", .opt (.text "a string"), some .null),
     ("worktree", .opt worktreeShape, some .null)]

/-- The worktree as JSON. -/
def worktreeJson (w : Worktree) : Json :=
  .obj [("branch", .str w.branch), ("repo_root", .str w.repoRoot),
    ("worktree_path", .str w.worktreePath)]

/-- The session as JSON, fields in their stored order. -/
def toJson (s : Session) : Json :=
  .obj [("id", .str s.id), ("title", .str s.title), ("project_path", .str s.projectPath),
    ("group_path", .str s.groupPath), ("parent_session_id", Json.ofOption .str s.parentId),
    ("command", .str s.command), ("tool", s.tool.toJson), ("status", s.status.toJson),
    ("created_at", s.createdAt.toJson),
    ("last_accessed_at", Json.ofOption Stamp.toJson s.lastAccessedAt),
    ("claude_session_id", Json.ofOption .str s.claudeConversation),
    ("gemini_session_id", Json.ofOption .str s.geminiConversation),
    ("worktree", Json.ofOption worktreeJson s.worktree)]

/-- A text field that may be null. -/
def optText (j : Json) (key : String) : Option (Option String) :=
  match j.field? key with
  | some .null => some none
  | some (.str s) => some (some s)
  | _ => none

/-- The worktree stored in a JSON object of its shape. -/
def worktreeOfJson? (j : Json) : Option Worktree := do
  let branch ← (j.field? "branch") >>= Json.asString?
  let repoRoot ← (j.field? "repo_root") >>= Json.asString?
  let worktreePath ← (j.field? "worktree_path") >>= Json.asString?
  return { branch, repoRoot, worktreePath }

/-- The session stored in a JSON object of its shape. -/
def ofJson? (j : Json) : Option Session := do
  let id ← (j.field? "id") >>= Json.asString?
  let title ← (j.field? "title") >>= Json.asString?
  let projectPath ← (j.field? "project_path") >>= Json.asString?
  let groupPath ← (j.field? "group_path") >>= Json.asString?
  let parentId ← optText j "parent_session_id"
  let command ← (j.field? "command") >>= Json.asString?
  let tool ← (j.field? "tool") >>= Tool.ofJson?
  let status ← (j.field? "status") >>= Status.ofJson?
  let createdAt ← (j.field? "created_at") >>= Stamp.ofJson?
  let lastAccessedAt ← match j.field? "last_accessed_at" with
    | some .null => some none
    | some v => (Stamp.ofJson? v).map some
    | none => none
  let claudeConversation ← optText j "claude_session_id"
  let geminiConversation ← optText j "gemini_session_id"
  let worktree ← match j.field? "worktree" with
    | some .null => some none
    | some v => (worktreeOfJson? v).map some
    | none => none
  return {
    id, title, projectPath, groupPath, parentId, command, tool, status, createdAt,
    lastAccessedAt, claudeConversation, geminiConversation, worktree }

end Session

end AgentDeck
