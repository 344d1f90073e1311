import AgentDeck.World
import AgentDeck.Config

/-!
Upkeep of the pane logs of a profile.

Each session's pane output goes to `<id>.log` in the log directory, and such files grow
without bound. A check cuts every log larger than the size limit down to its last bytes; a
full pass also removes the logs of sessions that no longer exist. A missing log directory
holds no logs. Files without the `.log` extension are never touched, and a log that cannot be
cut or removed is skipped.
-/

namespace AgentDeck

/-- What a full upkeep pass did. -/
structure LogReport where
  truncated : Nat := 0
  removed : Nat := 0
  deriving DecidableEq, Repr, Inhabited

/-- The pane logs in a directory, kept by the given settings. -/
structure PaneLogs where
  dir : String
  config : LogConfig
  deriving Repr, Inhabited

namespace PaneLogs

/-- The log file of a session. -/
def logPath (l : PaneLogs) (id : String) : String := Path.join l.dir (id ++ ".log")

/-- The `.log` entries of the directory with their sizes. -/
def logs (l : PaneLogs) : Act (List (String × Nat)) := do
  let names ← match ← Act.attempt (Act.list l.dir) with
    | .ok ns => pure ns
    | .error e => if e.isNotFound then pure [] else throw e
  names.filterMapM fun n => do
    let p := Path.join l.dir n
    if Path.extension? p != some "log" then return none
    match ← Act.attempt (Act.stat p) with
    | .ok e => return some (p, e.size)
    | .error _ => return none

/-- Keep only the last `keep` bytes of the file at `path`. -/
def cutToTail (path : String) (keep : Nat) : Act Unit := do
  let data ← Act.readBytes path
  if data.size ≤ keep then return
  Act.writeBytes path (data.extract (data.size - keep) data.size)

/-- One log of the check: a log over the size limit is cut to its tail, and counted when the
cut succeeds. -/
def cutStep (l : PaneLogs) (n : Nat) : String × Nat → Act Nat
  | (p, len) => do
    if len ≤ l.config.maxBytes then return n
    match ← Act.attempt (cutToTail p l.config.keepBytes) with
    | .ok () => return n + 1
    | .error _ => return n

/-- Cut every log over the size limit to its tail; answers how many were cut. -/
def check (l : PaneLogs) : Act Nat := do
  (← l.logs).foldlM l.cutStep 0

/-- One log of the removal: the log of a session not `known` is removed, and counted when the
removal succeeds. -/
def removeStep (known : List String) (n : Nat) : String × Nat → Act Nat
  | (p, _) => do
    match Path.fileStem? p with
    | none => return n
    | some id =>
      if known.contains id then return n
      match ← Act.attempt (Act.removeFile p) with
      | .ok () => return n + 1
      | .error _ => return n

/-- The check, then removal of the logs whose session is not `known`. -/
def maintain (l : PaneLogs) (known : List String) : Act LogReport := do
  let truncated ← l.check
  let removed ← (← l.logs).foldlM (removeStep known) 0
  return { truncated, removed }

end PaneLogs

end AgentDeck
