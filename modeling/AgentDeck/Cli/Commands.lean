import AgentDeck.Cli.Args
import AgentDeck.Registry
import AgentDeck.Engine.Run
import AgentDeck.Render
import AgentDeck.Mux.Tmux
import AgentDeck.Forge.Cli
import AgentDeck.Hook.Install
import AgentDeck.Watch.Reports
import AgentDeck.Watch.Store

/-!
What each command of the command line does.

`add` registers a project directory as a session (once per directory) and may start its
pane; `list` shows the sessions of a profile as a table or as JSON; `remove` finds a session
by id, id prefix or title, stops its pane and drops it; `watch` renders the dashboard;
`hooks install` installs the status hook; `profiles` lists the profiles and marks the one in
use; `version` names the program's version.

A run prints to standard output and standard error and ends with a status: 0, 1 after an
error (printed as `Error: ` and the error, then its cause), 2 when the command line could
not be read, or 101 after a crash. The session table crashes on an id whose twelfth octet
falls inside a character, after the rows before it are printed.
-/

namespace AgentDeck.Cli

open AgentDeck.Watch

/-- A broken assumption that stops a run at once: where in the program it broke, and why. -/
structure Crash where
  site : String
  message : String
  deriving Inhabited

/-- What a command printed, and the error or the crash it ended with, if any. -/
structure Transcript where
  out : String := ""
  err : String := ""
  failure : Option Error := none
  crash : Option Crash := none
  deriving Inhabited

/-- The settings under the dashboard's home; a missing, unreadable or broken file gives the
defaults. -/
def loadConfig : Act Config := do
  match ← Act.attempt (do Act.readText (Path.join (← Registry.homeDir) "config.toml")) with
  | .ok text =>
    match Config.ofToml text with
    | .ok c => return c
    | .error _ => return {}
  | .error _ => return {}

/-- Register the project directory `path` (the working directory when absent) as a session
of `profile`, and start its pane when `start` is set. -/
def add (profile : String) (path title group cmd : Option String) (start : Bool) :
    Act Transcript := do
  let given := path.getD (← get).env.cwd
  let projectPath ← Act.canonicalize given
  if !(← Act.isDir projectPath) then
    throw (.invalidInput ("Path is not a directory: " ++ projectPath))
  let title := title.getD ((Path.fileName? projectPath).getD "Untitled")
  let reg ← Registry.ofProfile profile
  let snap ← reg.load
  if let some s := snap.sessions.find? (·.projectPath == projectPath) then
    return { out := "✓ Session already exists: " ++ s.title ++ " (" ++ s.id ++ ")\n" }
  let id ← Act.freshId
  let now ← Act.now
  let s := Session.create id title projectPath (← get).env.home now
  let s := match group with
    | some g => { s with groupPath := g }
    | none => s
  let s := match cmd with
    | some c => { s with tool := Tool.ofCommand c, command := c }
    | none => s
  reg.upsert s
  let out := "✓ Added session: " ++ title ++ "\n  Profile: " ++ profile ++ "\n  Path:    " ++
    projectPath ++ "\n  Group:   " ++ s.groupPath ++ "\n  ID:      " ++ s.id ++ "\n"
  if !start then return { out }
  if !(← Mux.tmuxAvailable) then
    return { out, err := "Warning: tmux not found, session not started\n" }
  let config ← loadConfig
  let spec : SpawnSpec := {
    name := s.paneName, workingDir := s.projectPath,
    command := if s.command.isEmpty then none else some s.command, instanceId := s.id,
    logPath := if config.logs.enabled then some (Path.join reg.logsDir (s.id ++ ".log")) else none }
  match ← Act.attempt (Mux.tmux.spawn spec) with
  | .ok () => return { out := out ++ "  Started: " ++ spec.name ++ "\n" }
  | .error e => return { out, failure := some e }

/-- The first twelve octets of an id. When octet twelve falls inside a character the id
cannot be cut there, and the reason names that character and its octets. -/
def idPrefix (id : String) : Except String String :=
  match Text.cutAt id.toList 12 with
  | .boundary kept => .ok (String.ofList kept)
  | .inside start c =>
    .error ("end byte index 12 is not a char boundary; it is inside " ++ Text.debugQuotedChar c ++
      " (bytes " ++ toString start ++ ".." ++ toString (start + c.utf8Size) ++ " of string)")

/-- The row of the session table for `s`, showing `id` as its id. -/
def rowText (s : Session) (id : String) : String :=
  s.status.glyph ++ " " ++ padTo 20 (s.title.fitColumns 20) ++ " " ++
    padTo 15 (s.groupPath.fitColumns 15) ++ " " ++ padTo 40 (s.projectPath.fitColumns 40) ++ " " ++
    id ++ "\n"

/-- One row of the session table, or why its id cannot be cut. -/
def tableRow (s : Session) : Except String String := do
  let id ← idPrefix s.id
  return rowText s id

/-- The rows of the session table up to the first one that cannot be written, and why that
one cannot. -/
def tableRows : List Session → String × Option String
  | [] => ("", none)
  | s :: rest =>
    match tableRow s with
    | .error why => ("", some why)
    | .ok row =>
      let (more, why) := tableRows rest
      (row ++ more, why)

/-- Where the session table stops a run whose id cannot be cut. -/
def tableCrashSite : String := "src/cli/commands.rs:160:21"

/-- The lines above the rows of the session table. -/
def tableHead (profile : String) : String :=
  let header := "  " ++ padTo 20 "TITLE" ++ " " ++ padTo 15 "GROUP" ++ " " ++ padTo 40 "PATH" ++ " ID\n"
  "Profile: " ++ profile ++ "\n\n" ++ header ++ String.ofList (List.replicate 92 '-') ++ "\n"

/-- The session table of `profile`, or the notice that it has no sessions. -/
def sessionTable (profile : String) (sessions : List Session) : Transcript :=
  if sessions.isEmpty then { out := "No sessions found in profile '" ++ profile ++ "'.\n" }
  else
    match tableRows sessions with
    | (rows, some message) =>
      { out := tableHead profile ++ rows, crash := some ⟨tableCrashSite, message⟩ }
    | (rows, none) =>
      { out := tableHead profile ++ rows ++ "\nTotal: " ++ toString sessions.length ++ " sessions\n" }

/-- Show the sessions of `profile`, as pretty JSON or as a table. -/
def list (profile : String) (json : Bool) : Act Transcript := do
  let reg ← Registry.ofProfile profile
  let sessions := (← reg.load).sessions
  if json then return { out := Json.pretty (.arr (sessions.map Session.toJson)) ++ "\n" }
  return sessionTable profile sessions

/-- The session `identifier` names: by id, else by id prefix, else by title. -/
def findSession (sessions : List Session) (identifier : String) : Option Session :=
  (sessions.find? (·.id == identifier)) <|> (sessions.find? (·.id.startsWith identifier)) <|>
    (sessions.find? (·.title == identifier))

/-- Drop the session `identifier` names from `profile`, stopping its pane first. -/
def remove (profile identifier : String) : Act Transcript := do
  let reg ← Registry.ofProfile profile
  let sessions := (← reg.load).sessions
  let some s := findSession sessions identifier | throw (.sessionNotFound identifier)
  let warning ← if ← Mux.tmux.hasPane s.paneName then
      match ← Act.attempt (Mux.tmux.kill s.paneName) with
      | .ok () => pure ""
      | .error e => pure ("Warning: failed to kill tmux session: " ++ e.text ++ "\n")
    else pure ""
  match ← Act.attempt (reg.remove [s.id]) with
  | .ok () => return { out := "✓ Removed session: " ++ s.title ++ " (" ++ s.id ++ ")\n", err := warning }
  | .error e => return { err := warning, failure := some e }

/-- Render the dashboard of `profile` once it has loaded. Watching for good first sets up
the watches over the registry and the hook reports. -/
def watch (profile : String) (once : Bool) : Act Transcript := do
  let config ← loadConfig
  let reg ← Registry.ofProfile profile
  let e ← (Engine.new config reg Mux.tmux GitLookup.cli (← get).clock).bootstrap
  if !once then
    let _ ← RegistryWatch.start reg.path config.watcher
    let _ ← ReportWatch.start (config.hooks.resolvedEventsDir (← Registry.homeDir)) config.watcher
  return { out := e.render }

/-- Install the status hook for the current user. -/
def hooksInstall : Act Transcript := do
  let config ← loadConfig
  let events := config.hooks.resolvedEventsDir (← Registry.homeDir)
  let home := (← get).env.home
  if home.isEmpty then throw (.config "Cannot determine home directory")
  let settings := Path.join (Path.join home ".claude") "settings.json"
  let script := Path.join (Path.join (← Registry.homeDir) "hooks") "status_hook.sh"
  let i ← Hook.installAt script settings events
  let head := if i.changed then "✓ Installed status hook\n" else "✓ Status hook already installed\n"
  return { out := head ++ "  Script:   " ++ i.scriptPath ++ "\n  Settings: " ++ i.settingsPath ++
    "\n  Events:   " ++ i.eventsDir ++ "\n" }

/-- List the profiles, marking `profile`. -/
def profiles (profile : String) : Act Transcript := do
  let names ← Registry.profiles
  return { out := String.join (names.map fun n => (if n == profile then "* " else "  ") ++ n ++ "\n") }

/-- Run what a command line asks for. -/
def execute (inv : Invocation) : Act Transcript := do
  let profile := inv.profile.getD Registry.defaultProfile
  let act : Act Transcript := match inv.command with
    | some (.add path title group cmd start) => add profile path title group cmd start
    | some (.list json) => list profile json
    | some (.remove identifier) => remove profile identifier
    | some (.watch once) => watch profile once
    | some .hooksInstall => hooksInstall
    | some .profiles => profiles profile
    | some .version => pure { out := "deckhand v0.1.0\n" }
    | none => watch profile false
  match ← Act.attempt act with
  | .ok t => return t
  | .error e => return { failure := some e }

/-- How an error ends a run on standard error: the error, then its cause. -/
def errorReport (e : Error) : String :=
  "Error: " ++ e.text ++ ((e.cause?.map fun c => "\n\nCaused by:\n    " ++ c).getD "") ++ "\n"

/-- How a crash ends a run on standard error: the main thread, named with the process's id,
where it happened and why. -/
def crashReport (pid : Nat) (c : Crash) : String :=
  "\nthread 'main' (" ++ toString pid ++ ") panicked at " ++ c.site ++ ":\n" ++ c.message ++
    "\nnote: run with `RUST_BACKTRACE=1` environment variable to display a backtrace\n"

/-- The output of one run of the program on `args`: standard output, standard error and the
exit status. -/
def runProgram (args : List String) : Act (String × String × Nat) := do
  match read (← get).env.profile args with
  | .show text => return (text, "", 0)
  | .fail text => return ("", text, 2)
  | .run inv =>
    let t ← execute inv
    match t.crash, t.failure with
    | some c, _ => return (t.out, t.err ++ crashReport (← get).env.pid c, 101)
    | none, some e => return (t.out, t.err ++ errorReport e, 1)
    | none, none => return (t.out, t.err, 0)

end AgentDeck.Cli
