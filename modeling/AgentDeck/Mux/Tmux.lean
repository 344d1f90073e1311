import AgentDeck.Mux.Basic
import AgentDeck.Session.Basic
import AgentDeck.Text.Blank
import AgentDeck.Text.Lines
import AgentDeck.Text.Search

/-!
The multiplexer that runs `tmux`, on a server socket of its own (`-L deckhand`).

A pane exists when `has-session` on its exact name succeeds. Listing fails quietly: when no
server runs there are no panes, and only panes whose names carry the dashboard's lead are
listed. A failed command is a multiplexer error naming what failed, with the command's error
output trimmed. Starting a pane that already runs counts as started; a pane with a log path
has its output appended to that file, and a failure to set that up only costs the log.
-/

namespace AgentDeck

namespace Mux

/-- The server socket the dashboard's panes live on. -/
def serverName : String := "deckhand"

/-- Run `tmux` on the dashboard's server. -/
def tmuxRun (args : List String) : Act Reply := do
  Act.run "tmux" (← get).env.cwd (["-L", serverName] ++ args)

/-- Run `tmux`; a failure is an error saying what failed. -/
def tmuxCheck (args : List String) (what : String) : Act String := do
  let r ← tmuxRun args
  if r.code != 0 then throw (.mux ("Failed to " ++ what ++ ": " ++ r.stderr.trimBlank))
  return r.stdout

/-- `tmux` can be run. -/
def tmuxAvailable : Act Bool := do
  match ← Act.attempt (Act.run "tmux" (← get).env.cwd ["-V"]) with
  | .ok r => return r.code == 0
  | .error _ => return false

/-- The words of the command a pane starts: the given command, or else a login shell. -/
def startWords (env : Env) (command : Option String) : List String :=
  match command.map String.trimBlank with
  | some c => if c.isEmpty then [env.shell.getD "/bin/sh", "-l"] else [c]
  | none => [env.shell.getD "/bin/sh", "-l"]

/-- The shell command that appends a pane's output to `path`. -/
def appendCommand (path : String) : String :=
  "cat >> '" ++ path.swapAll "'" "'\\''" ++ "'"

/-- Start a pane as `spec` says. -/
def tmuxSpawn (spec : SpawnSpec) : Act Unit := do
  let env := (← get).env
  let r ← tmuxRun (["new-session", "-d", "-s", spec.name, "-c", spec.workingDir, "-e",
    "DECKHAND_INSTANCE_ID=" ++ spec.instanceId] ++ startWords env spec.command)
  if r.code != 0 && !r.stderr.holds "duplicate session" then
    throw (.mux ("Failed to create session: " ++ r.stderr.trimBlank))
  if let some log := spec.logPath then
    if let some dir := Path.parent? log then Act.mkdirAll dir
    let _ ← Act.attempt (tmuxCheck ["pipe-pane", "-o", "-t", spec.name, appendCommand log] "pipe pane")

/-- The multiplexer that runs `tmux`. -/
def tmux : Mux where
  hasPane name := do
    match ← Act.attempt (tmuxRun ["has-session", "-t", "=" ++ name]) with
    | .ok r => return r.code == 0
    | .error _ => return false
  livePanes := do
    let r ← tmuxRun ["list-sessions", "-F", "#\x7bsession_name\x7d"]
    if r.code != 0 then return []
    return ((r.stdout.textLines.filter (·.startsWith paneLead)).mergeSort
      fun a b => !(b < a)).eraseDups
  capture name lines := tmuxCheck ["capture-pane", "-p", "-t", name, "-S", "-" ++ toString lines]
    "capture pane"
  spawn := tmuxSpawn
  kill name := do let _ ← tmuxCheck ["kill-session", "-t", name] "kill session"

end Mux

end AgentDeck
