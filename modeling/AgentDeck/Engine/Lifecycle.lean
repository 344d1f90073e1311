import AgentDeck.Engine.Reload

/-!
Sessions created, forked, deleted and restored.

A new or restored session is stored in the registry at once, before anything else: the
handler makes that write and these steps take how it went. While a reload runs a new session
is kept aside and merged when the reload lands. Deleting removes sessions from
memory and from the registry right away, orphans their tasks, and remembers them for undo;
while the removal may still be overtaken by a stale read, the ids are guarded. Deletes and
undo are refused during a reload.
-/

namespace AgentDeck

namespace Engine

/-- Note how storing `s` in the registry at once went: a failure shows a banner. -/
def noteStored (e : Engine) (s : Session) (stored : Except Error Unit) : Engine :=
  match stored with
  | .ok () => e
  | .error err => e.showBanner ("Failed to save session " ++ s.title ++ ": " ++ err.text)

/-- Take in a created or forked session, animated as `anim`; `stored` is how storing it,
which comes first, went. -/
def addSession (e : Engine) (s : Session) (anim : Animation) (stored : Except Error Unit) :
    Engine :=
  let e := e.noteStored s stored
  if e.reloading then
    { e with animations := e.animations.start anim s.id e.clock,
             forceSaved := e.forceSaved ++ [s] }
  else
    let e := e.insertSession s
    let e := { e with animations := e.animations.start anim s.id e.clock }
    (e.selectSession s.id).1.scheduleSave

/-- Mark the tasks linked to `id` orphaned or not. -/
def orphanTasks (tasks : List Task) (id : String) (orphaned : Bool) : List Task :=
  tasks.map fun t => if t.isLinkedTo id then { t with orphaned } else t

/-- Remove one session from memory, keeping it for undo. -/
def dropSession (e : Engine) (s : Session) : Engine :=
  let id := s.id
  let undo := e.undo ++ [s]
  { e with
    sessions := e.sessions.filter (·.id != id)
    tasks := orphanTasks e.tasks id true
    cache := e.cache.invalidateEntity id
    inFlight := e.inFlight.filter (·.1 != id)
    animations := e.animations.clear id
    fingerprints := dropKey e.fingerprints id
    hookHolds := dropKey e.hookHolds id
    pendingPreview := if e.pendingPreview == some id then none else e.pendingPreview
    undo := undo.drop (undo.length - e.config.engine.undoLimit) }

/-- Remove sessions from the registry now; until a reload after it is over, a stale read
must not bring them back. -/
def persistDeletes (e : Engine) (ids : List String) : Engine :=
  { e with pendingDeletes := ids.foldl (fun tbl id => putKey tbl id false) e.pendingDeletes }.spawn
    (.removeSessions ids)

/-- Remove the session with id `id`, if there is one, and note it among the removed. -/
def dropFound (acc : Engine × List Session) (id : String) : Engine × List Session :=
  match acc.1.session? id with
  | some s => (acc.1.dropSession s, acc.2 ++ [s])
  | none => acc

/-- Delete sessions, and stop their panes if `kill`. -/
def deleteSessions (e : Engine) (ids : List String) (kill : Bool) : Engine :=
  if e.reloading then e
  else
    let (e, removed) := ids.foldl dropFound (e, [])
    if removed.isEmpty then e
    else
      let e := (e.rebuildView.persistDeletes (removed.map (·.id))).scheduleSave
      if kill then e.spawn (.kill (removed.map (·.paneName))) else e

/-- The removal of `id` was stored: its guard goes, or during a reload is marked to go when
the reload is over. -/
def settleDelete (e : Engine) (id : String) : Engine :=
  if e.reloading then
    { e with pendingDeletes := e.pendingDeletes.map fun p => if p.1 == id then (id, true) else p }
  else { e with pendingDeletes := dropKey e.pendingDeletes id }

/-- Note how storing a removal went: a failure shows a banner. -/
def noteRemoval (e : Engine) (result : Except Error Unit) : Engine :=
  match result with
  | .ok () => e
  | .error err => e.showBanner ("Save failed: " ++ err.text)

/-- The removal of deleted sessions was stored, or failed. -/
def onDeletesPersisted (e : Engine) (ids : List String) (result : Except Error Unit) : Engine :=
  ids.foldl settleDelete (e.noteRemoval result)

/-- Start the pane of a restored session again if it is gone. -/
def respawn (e : Engine) (s : Session) : Engine :=
  let logPath := if e.config.logs.enabled then some (Path.join e.registry.logsDir (s.id ++ ".log"))
    else none
  e.spawn (.respawn s.title
    { name := s.paneName, workingDir := s.projectPath,
      command := if s.command.isEmpty then none else some s.command,
      instanceId := s.id, logPath })

/-- The session an undo brings back: the latest deleted one, and none during a reload. -/
def undoTarget? (e : Engine) : Option Session := if e.reloading then none else e.undo.getLast?

/-- Bring back `s`, the latest deleted session, and its tasks; `stored` is how storing it
again, which comes first, went. -/
def restoreSession (e : Engine) (s : Session) (stored : Except Error Unit) : Engine :=
  let e := e.noteStored s stored
  let e := { e with undo := e.undo.dropLast, pendingDeletes := dropKey e.pendingDeletes s.id,
                    tasks := orphanTasks e.tasks s.id false }
  let e := e.insertSession s
  let e := { e with animations := e.animations.start .resuming s.id e.clock }
  let e := (e.cacheDrop s.id .preview).selectSession s.id
  e.1.scheduleSave.respawn s

end Engine

end AgentDeck
