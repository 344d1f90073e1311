import AgentDeck.World
import AgentDeck.Group.Tree
import AgentDeck.Task.Basic

/-!
The registry of a profile: one JSON file holding its sessions, groups and tasks.

Every access first takes the profile's lock file (`sessions.lock`, created empty when
missing). A write never edits the registry in place: it rolls three generations of backups
(`.bak` to `.bak.2` to `.bak.3`, then a copy of the registry to `.bak`), writes the new text to
`sessions.tmp` and moves that over the registry. Reading a missing registry gives an empty
one; reading anything else that fails is an error.

Beside the registry lies the view state (cursor and scroll position), which a reader takes
as empty whenever it cannot be read.
-/

namespace AgentDeck

open AgentDeck.Time

/-- Cursor and scroll position kept between runs. -/
structure ViewState where
  cursorSession : Option String := none
  cursorGroup : Option String := none
  offset : Nat := 0
  deriving DecidableEq, Repr, Inhabited

namespace ViewState

/-- Stored form: every field may be left out. -/
def shape : Json.Shape :=
  .record "UiState"
    [("cursor_session_id", .opt (.text "a string"), some .null),
     ("cursor_group_path", .opt (.text "a string"), some .null),
     ("viewport_offset", .unsigned "usize" Json.u64Max, some (.ofNat 0))]

/-- The view state as JSON, fields in their stored order. -/
def toJson (v : ViewState) : Json :=
  .obj [("cursor_session_id", Json.ofOption .str v.cursorSession),
    ("cursor_group_path", Json.ofOption .str v.cursorGroup),
    ("viewport_offset", .ofNat v.offset)]

/-- The view state stored in a JSON object of its shape. -/
def ofJson? (j : Json) : Option ViewState := do
  let cursorSession ← Session.optText j "cursor_session_id"
  let cursorGroup ← Session.optText j "cursor_group_path"
  let offset ← (j.field? "viewport_offset") >>= Json.asNat?
  return { cursorSession, cursorGroup, offset }

/-- The view state a text holds, or the empty one when it holds none. -/
def ofText (text : String) : ViewState :=
  match Json.readDocument shape text with
  | .ok j => (ofJson? j).getD {}
  | .error _ => {}

end ViewState

/-- What the registry file holds. -/
structure Contents where
  sessions : List Session := []
  groups : List Group := []
  tasks : List Task := []
  updatedAt : Stamp
  deriving Inhabited

namespace Contents

/-- Stored form: `tasks` may be left out. -/
def shape : Json.Shape :=
  .record "StorageData"
    [("instances", .list Session.shape, none), ("groups", .list Group.shape, none),
     ("tasks", .list Task.shape, some (.arr [])), ("updated_at", Stamp.shape, none)]

/-- The contents as JSON; groups are stored without their members. -/
def toJson (c : Contents) : Json :=
  .obj [("instances", .arr (c.sessions.map Session.toJson)),
    ("groups", .arr (c.groups.map Group.storedJson)),
    ("tasks", .arr (c.tasks.map Task.toJson)), ("updated_at", c.updatedAt.toJson)]

/-- The contents stored in a JSON object of their shape. -/
def ofJson? (j : Json) : Option Contents := do
  let sessions ← ((j.field? "instances") >>= Json.asArray?) >>= List.mapM Session.ofJson?
  let groups ← ((j.field? "groups") >>= Json.asArray?) >>= List.mapM Group.ofJson?
  let tasks ← ((j.field? "tasks") >>= Json.asArray?) >>= List.mapM Task.ofJson?
  let updatedAt ← (j.field? "updated_at") >>= Stamp.ofJson?
  return { sessions, groups, tasks, updatedAt }

/-- Read the contents from the registry's text. -/
def ofText (text : String) : Except Error Contents := do
  let j ← (Json.readDocument shape text).mapError .json
  match ofJson? j with
  | some c => return c
  | none => throw (.json ⟨.mismatch, "invalid registry", 0, 0⟩)

/-- Put a session in place of the first one with its id, or after the others. -/
def putSession (c : Contents) (s : Session) : Contents :=
  let sessions := if c.sessions.any (·.id == s.id) then
      c.sessions.modify (c.sessions.findIdx (·.id == s.id)) fun _ => s
    else c.sessions ++ [s]
  let groups := if s.groupPath.isEmpty then c.groups
    else ((GroupTree.ofGroups c.groups).create s.groupPath).1.all
  let tasks := c.tasks.map fun t => if t.isLinkedTo s.id then { t with orphaned := false } else t
  { c with sessions, groups, tasks }

/-- Drop the sessions with the given ids; tasks linked to them are marked orphaned. -/
def dropSessions (c : Contents) (ids : List String) : Contents :=
  let sessions := c.sessions.filter fun s => !ids.contains s.id
  let tasks := c.tasks.map fun t =>
    if t.sessionId.any ids.contains then { t with orphaned := true } else t
  { c with sessions, tasks }

end Contents

/-- Registry contents and the modification time of the file they were read from. -/
structure Snapshot where
  sessions : List Session := []
  groups : List Group := []
  tasks : List Task := []
  mtime : Option Nat := none
  deriving Inhabited

namespace Contents

/-- What reading the contents answers, with the file's modification time. -/
def snapshot (c : Contents) (mtime : Option Nat) : Snapshot :=
  { sessions := c.sessions, groups := c.groups, tasks := c.tasks, mtime }

/-- The contents a full save of sessions, a tree's groups and tasks writes, stamped `stamp`. -/
def ofSave (sessions : List Session) (tree : GroupTree) (tasks : List Task) (stamp : Stamp) :
    Contents :=
  { sessions, groups := tree.all, tasks, updatedAt := stamp }

end Contents

/-- The group tree of a snapshot, with members. -/
def Snapshot.tree (s : Snapshot) : GroupTree := GroupTree.ofParts s.groups s.sessions

/-- The registry file of a profile. -/
structure Registry where
  path : String
  profile : String
  deriving Repr, Inhabited

namespace Registry

/-- The profile used when none is named. -/
def defaultProfile : String := "default"

/-- Backups kept of the registry. -/
def backupGenerations : Nat := 3

/-- The dashboard's home: set explicitly, or `.deckhand` in the user's home. -/
def homeDir : Act String := do
  let env := (← get).env
  match env.deckHome with
  | some d => return d
  | none =>
    if env.home.isEmpty then throw (.config "Cannot determine home directory")
    return Path.join env.home ".deckhand"

/-- The registry of a profile under the dashboard's home; its directory is created. -/
def ofProfile (profile : String) : Act Registry := do
  let dir := Path.join (Path.join (← homeDir) "profiles") profile
  Act.mkdirAll dir
  return ⟨Path.join dir "sessions.json", profile⟩

/-- The directory of the registry. -/
def profileDir (r : Registry) : String := (Path.parent? r.path).getD ""

/-- The directory that pane logs go to. -/
def logsDir (r : Registry) : String := Path.join r.profileDir "logs"

/-- The file beside the registry with another extension. -/
def sibling (r : Registry) (ext : String) : String := Path.withExtension r.path ext

/-- Take the lock file, creating it and its directory when missing. -/
def lock (r : Registry) : Act Unit := do
  let lockPath := r.sibling "lock"
  if let some dir := Path.parent? lockPath then Act.mkdirAll dir
  Act.touch lockPath

/-- The registry's modification time, or `none` when it is missing. -/
def mtime (r : Registry) : Act (Option Nat) := do
  match ← Act.attempt (Act.stat r.path) with
  | .ok e => return some e.mtime
  | .error e => if e.isNotFound then return none else throw e

/-- The registry's contents; a missing registry is empty. -/
def readContents (r : Registry) : Act Contents := do
  match ← Act.attempt (Act.readText r.path) with
  | .ok text => liftExcept (Contents.ofText text)
  | .error e => if e.isNotFound then return { updatedAt := ← Act.now } else throw e
where
  liftExcept {α : Type} : Except Error α → Act α
    | .ok a => pure a
    | .error e => throw e

/-- Roll the backups and copy the registry to the first one; nothing when it is missing. -/
def rollBackups (r : Registry) : Act Unit := do
  unless ← Act.pathExists r.path do return
  for i in (List.range (backupGenerations - 1)).reverse.map (· + 1) do
    let src := if i == 1 then r.sibling "bak" else r.sibling ("bak." ++ toString i)
    let dst := r.sibling ("bak." ++ toString (i + 1))
    if ← Act.pathExists src then
      if ← Act.pathExists dst then
        let _ ← Act.attempt (Act.removeFile dst)
      Act.rename src dst
  Act.copy r.path (r.sibling "bak")

/-- Replace the registry's text, keeping backups; the lock is held. -/
def writeContents (r : Registry) (c : Contents) : Act Unit := do
  if let some dir := Path.parent? r.path then Act.mkdirAll dir
  r.rollBackups
  let temp := r.sibling "tmp"
  Act.writeText temp (Json.pretty c.toJson)
  Act.rename temp r.path

/-- Read the sessions, groups and tasks. -/
def load (r : Registry) : Act Snapshot := do
  r.lock
  let c ← r.readContents
  return c.snapshot (← r.mtime)

/-- Store the sessions, the tree's groups and the tasks. -/
def save (r : Registry) (sessions : List Session) (tree : GroupTree) (tasks : List Task) :
    Act Unit := do
  r.lock
  r.writeContents (Contents.ofSave sessions tree tasks (← Act.now))

/-- Read, change and store the contents under one lock. -/
def update (r : Registry) (f : Contents → Contents) : Act Unit := do
  r.lock
  let c ← r.readContents
  r.writeContents { f c with updatedAt := ← Act.now }

/-- Store one session, creating its group. -/
def upsert (r : Registry) (s : Session) : Act Unit := r.update (·.putSession s)

/-- Remove sessions, marking their tasks orphaned. -/
def remove (r : Registry) (ids : List String) : Act Unit := r.update (·.dropSessions ids)

/-- Where the view state is kept. -/
def viewStatePath (r : Registry) : String := Path.join r.profileDir "ui_state.json"

/-- The stored view state; one that cannot be read is empty. -/
def loadViewState (r : Registry) : Act ViewState := do
  match ← Act.attempt (Act.readText r.viewStatePath) with
  | .ok text => return ViewState.ofText text
  | .error _ => return {}

/-- Store the view state through a temporary file. -/
def saveViewState (r : Registry) (v : ViewState) : Act Unit := do
  let path := r.viewStatePath
  let temp := Path.withExtension path "tmp"
  Act.writeText temp (Json.pretty v.toJson)
  Act.rename temp path

/-- The profiles: the directories under the home's `profiles`, sorted, or the default one
when there are none. -/
def profiles : Act (List String) := do
  let dir := Path.join (← homeDir) "profiles"
  unless ← Act.pathExists dir do return [defaultProfile]
  let mut found : List String := []
  for name in ← Act.list dir do
    if ← Act.isDir (Path.join dir name) then found := found ++ [name]
  if found.isEmpty then return [defaultProfile]
  return found.mergeSort fun a b => !(b < a)

end Registry

end AgentDeck
