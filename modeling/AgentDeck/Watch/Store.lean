import AgentDeck.Config
import AgentDeck.World

/-!
Watching the registry for changes made by other processes.

The watch looks at the registry's directory, since a writer that replaces the file replaces
its inode. A write to the registry's name arms a deadline; a burst of writes keeps pushing it
back, so the burst ends in one look. When the deadline passes, the file's time is read: a
missing file is passed over (the next write looks again), a time no later than the last one
seen is no change, and a change within the self-write window after the dashboard announced
its own save is the dashboard's own. Anything else is a change, and is signalled.

Time is the world's clock, as for the report watch.
-/

namespace AgentDeck.Watch

/-- The state of a watch over the registry. -/
structure RegistryWatch where
  path : String
  fileName : String
  debounceMs : Nat
  windowMs : Nat
  /-- The file's time when last looked at. -/
  lastMtime : Option Nat := none
  /-- The instant the dashboard last announced a save of its own. -/
  lastSave : Option Nat := none
  /-- When the next look is due. -/
  deadline : Option Nat := none
  /-- Changes signalled so far. -/
  signals : Nat := 0

namespace RegistryWatch

/-- Begin watching the registry at `path`: its directory is made, and the file's time taken.
A path without a parent directory or a file name cannot be watched. -/
def start (path : String) (cfg : WatcherConfig) : Act RegistryWatch := do
  let some dir := Path.parent? path | throw (.storage "registry path has no parent directory")
  let some fileName := Path.fileName? path | throw (.storage "registry path has no file name")
  Act.mkdirAll dir
  let lastMtime := match ← Act.attempt (Act.stat path) with
    | .ok e => some e.mtime
    | .error _ => none
  return { path, fileName, debounceMs := cfg.storageDebounceMs, windowMs := cfg.selfWriteWindowMs,
           lastMtime }

/-- A file named `name` in the registry's directory was created or changed. -/
def noteWrite (r : RegistryWatch) (now : Nat) (name : String) : RegistryWatch :=
  if name == r.fileName then { r with deadline := some (now + r.debounceMs) } else r

/-- The dashboard is about to write the registry itself. -/
def noteSave (r : RegistryWatch) (now : Nat) : RegistryWatch := { r with lastSave := some now }

/-- Look at the registry's time and signal a change made by someone else. -/
def look (r : RegistryWatch) (now : Nat) : Act RegistryWatch := do
  match ← Act.attempt (Act.stat r.path) with
  | .error _ => return r
  | .ok e =>
    let newer := r.lastMtime.all (· < e.mtime)
    let r := { r with lastMtime := some e.mtime }
    if !newer then return r
    if r.lastSave.any fun at_ => now - at_ < r.windowMs then return r
    return { r with signals := r.signals + 1 }

/-- Let `ms` milliseconds pass, looking when the deadline falls within them. -/
def wait (r : RegistryWatch) (ms : Nat) : Act RegistryWatch := do
  let now := (← get).clock
  match r.deadline with
  | some at_ =>
    if at_ ≤ now + ms then
      if now < at_ then Act.sleep (at_ - now)
      let r ← { r with deadline := none }.look (max now at_)
      Act.sleep (now + ms - max now at_)
      return r
    else
      Act.sleep ms
      return r
  | none =>
    Act.sleep ms
    return r

end RegistryWatch

end AgentDeck.Watch
