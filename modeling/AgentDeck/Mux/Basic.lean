import AgentDeck.World
import AgentDeck.Text.Debug

/-!
A terminal multiplexer as the dashboard uses it: whether a pane exists, which panes are
live, the last lines of a pane, starting a pane and stopping one.

Besides the multiplexer that runs `tmux`, there is one held in memory (`Mux.memory`): its
panes are part of the world, and it records every call it answers as one line of text.
-/

namespace AgentDeck

/-- What to start in a new pane. -/
structure SpawnSpec where
  name : String
  workingDir : String
  command : Option String
  /-- Exported to the pane so that hooks can name their reports. -/
  instanceId : String
  /-- Pane output is appended here when set. -/
  logPath : Option String
  deriving DecidableEq, Repr, Inhabited

/-- The operations of a multiplexer. -/
structure Mux where
  hasPane : String → Act Bool
  /-- Names of all live panes. -/
  livePanes : Act (List String)
  /-- The last lines of a pane. -/
  capture : String → Nat → Act String
  spawn : SpawnSpec → Act Unit
  kill : String → Act Unit

namespace Mux

/-- How the in-memory multiplexer records a start. -/
def spawnCall (s : SpawnSpec) : String :=
  "spawn " ++ s.name ++ " dir=" ++ s.workingDir ++ " cmd=" ++ Text.debugOption s.command ++
    " instance=" ++ s.instanceId ++ " log=" ++ Text.debugOption s.logPath

/-- Put a pane with its text, replacing one of the same name. -/
def putPane (name text : String) (ps : List (String × String)) : List (String × String) :=
  if (ps.lookup name).isSome then ps.map fun p => if p.1 == name then (name, text) else p
  else ps ++ [(name, text)]

/-- The multiplexer held in the world: a started pane shows no text yet. -/
def memory : Mux where
  hasPane name := do
    Act.note ("exists " ++ name)
    return ((← get).panes.live.lookup name).isSome
  livePanes := do
    Act.note "live_sessions"
    let panes := (← get).panes
    match panes.listError with
    | some m => throw (.mux m)
    | none => return panes.live.map (·.1)
  capture name lines := do
    Act.note ("capture " ++ name ++ " " ++ toString lines)
    match (← get).panes.live.lookup name with
    | some text => return text
    | none => throw (.mux ("no pane " ++ name))
  spawn spec := do
    Act.note (spawnCall spec)
    modify fun w => { w with panes := { w.panes with live := putPane spec.name "" w.panes.live } }
  kill name := do
    Act.note ("kill " ++ name)
    modify fun w =>
      { w with panes := { w.panes with live := w.panes.live.filter (·.1 != name) } }

end Mux

end AgentDeck
