import AgentDeck.Engine.Fetch

/-!
Taking in the registry after another process changed it.

Starting a reload raises the reload version: a load that finishes under an older version is
dropped, and so is every save queued before it. While the load runs, the user may still work:
sessions stored meanwhile, renames and deletes are kept aside and laid over the loaded state
when it arrives. If that leaves the state different from the file, it is saved back.
-/

namespace AgentDeck

namespace Engine

/-- Put a session in place of the one with its id, or after the others, creating its group. -/
def insertSession (e : Engine) (s : Session) : Engine :=
  let groups := if s.groupPath.isEmpty then e.groups else (e.groups.create s.groupPath).1
  let sessions := if (e.session? s.id).isSome then
      e.sessions.map fun t => if t.id == s.id then s else t
    else e.sessions ++ [s]
  { e with groups, sessions }.rebuildView

/-- Read the registry again in the background. -/
def startReload (e : Engine) : Engine :=
  let version := e.reloadVersion + 1
  let restore := if e.restore.isNone then some e.captureRestore else e.restore
  { e with reloadVersion := version, reloading := true, restore }.spawn (.load version)

/-- `s` with the live status of the session with its id, if there is one. -/
def withLiveStatus (e : Engine) (s : Session) : Session :=
  match e.session? s.id with
  | some cur => { s with status := cur.status }
  | none => s

/-- Take in one loaded session: not a deleted one or a repeat, and with its live status
kept. Tells also the ids taken and whether anything was left out. -/
def admitLoaded (e : Engine) (acc : List Session × List String × Bool) (s : Session) :
    List Session × List String × Bool :=
  let (out, seen, changed) := acc
  if (e.pendingDeletes.lookup s.id).isSome then (out, seen, true)
  else if seen.contains s.id then acc
  else
    let s := e.withLiveStatus s
    (out ++ [s], seen ++ [s.id], changed)

/-- The loaded sessions without deleted ones, repeats and with the live status kept. -/
def loadedSessions (e : Engine) (loaded : List Session) : List Session × List String × Bool :=
  loaded.foldl e.admitLoaded ([], [], false)

/-- Add a session kept aside during the reload, unless one with its id is there. -/
def mergeKept (acc : List Session × List String × Bool) (s : Session) :
    List Session × List String × Bool :=
  if acc.2.1.contains s.id then acc else (acc.1 ++ [s], acc.2.1 ++ [s.id], true)

/-- Give the session `id` the title it was renamed to during the reload. -/
def retitle (acc : List Session × Bool) (rename : String × String) : List Session × Bool :=
  let (id, title) := rename
  match acc.1.find? (·.id == id) with
  | some s =>
    if s.title != title then
      (acc.1.modify (acc.1.findIdx (·.id == id)) fun s => { s with title }, true)
    else acc
  | none => acc

/-- The sessions a reload installs: the loaded ones without deleted ones and repeats, then the
sessions kept aside, with the titles renamed meanwhile; tells whether they differ from the
loaded ones. -/
def reloadedSessions (e : Engine) (loaded : List Session) : List Session × Bool :=
  let (sessions, seen, changed) := e.loadedSessions loaded
  let (sessions, _, changed) := e.forceSaved.foldl mergeKept (sessions, seen, changed)
  e.pendingTitles.foldl retitle (sessions, changed)

/-- Replace the state by a snapshot, laying over it what happened in memory since the read
began; tells whether the result differs from the snapshot and should be stored. -/
def install (e : Engine) (snap : Snapshot) (r : Restore) : Engine × Bool :=
  let (sessions, changed) := e.reloadedSessions snap.sessions
  let (groups, merged) := (GroupTree.ofParts snap.groups sessions).mergeExpansion r.expansion
  let e := { e with sessions, tasks := snap.tasks, groups, forceSaved := [], pendingTitles := [],
                    rows := buildRows sessions groups }
  let (e, expanded) := e.applyRestore r
  let known := sessions.map (·.id)
  ({ e with cache := (e.cache.prune known.contains).1 }, changed || merged || expanded)

/-- Insert a session kept aside during a failed reload, unless one with its id is there. -/
def insertKept (acc : Engine × Bool) (s : Session) : Engine × Bool :=
  if (acc.1.session? s.id).isSome then acc else (acc.1.insertSession s, true)

/-- After a failed reload, sessions stored meanwhile still belong in memory. -/
def keepForceSaved (e : Engine) : Engine :=
  let (e, merged) := e.forceSaved.foldl insertKept ({ e with forceSaved := [] }, false)
  if merged then e.scheduleSave else e

/-- Deletes whose removal was stored need no more guarding once a reload is over. -/
def dropLandedDeletes (e : Engine) : Engine :=
  { e with pendingDeletes := e.pendingDeletes.filter fun p => !p.2 }

/-- A load finished. Only the latest reload counts; on success the state is replaced, the
cursor put back, and the selection's side data fetched. -/
def finishReload (e : Engine) (version : Nat) (result : Except Error Snapshot) : Engine :=
  if version != e.reloadVersion || !e.reloading then e
  else
    let first := e.restore.getD {}
    let e := { e with restore := none }
    match result with
    | .error err =>
      let e := { e with reloading := false, pendingTitles := [] }.dropLandedDeletes
      let e := if err.isNotFound then e
        else e.showBanner ("Failed to reload sessions: " ++ err.text)
      e.keepForceSaved
    | .ok snap =>
      let second := e.captureRestore
      let r := if second.cursor == .none then { first with expansion := second.expansion }
        else second
      let (e, changed) := e.install snap r
      let e := { e with reloading := false }.dropLandedDeletes
      let e := match e.selectedId? with
        | some id => e.fetchSideData id
        | none => e
      if changed then e.scheduleSave else e

end Engine

end AgentDeck
