import AgentDeck.Registry
import AgentDeck.Config
import AgentDeck.Mux.Basic
import AgentDeck.Forge.Git
import AgentDeck.Hook.Event
import AgentDeck.Engine.Animation

/-!
The dashboard's engine: the one owner of the sessions, groups and tasks, and of the view
over them.

The engine changes only by handling a message. Slow work (reading the registry, capturing a
pane, asking git) is never done while handling: the handler queues a `Job`, which runs
afterwards and whose outcome comes back as another message. Each handler reads the clock
once; `clock` is that reading, in milliseconds.

This module holds the engine's state and the small steps every handler shares: queueing a
job, scheduling a save, showing a banner, claiming a fetch.
-/

namespace AgentDeck

/-- One visible row of the session tree. -/
inductive Row where
  | group (path name : String) (depth : Nat)
  | session (id : String) (depth : Nat)
  deriving DecidableEq, Repr, Inhabited

/-- What the cursor is on, by identity rather than by row. -/
inductive Cursor where
  | session (id : String)
  | group (path : String)
  | none
  deriving DecidableEq, Repr, Inhabited

/-- The view around a reload: cursor, scroll position and fold-out flags. -/
structure Restore where
  cursor : Cursor := .none
  offset : Nat := 0
  expansion : List (String × Bool) := []
  deriving DecidableEq, Repr, Inhabited

/-- The view a stored view state asks for. -/
def Restore.ofViewState (v : ViewState) : Restore :=
  let cursor := match v.cursorSession, v.cursorGroup with
    | some id, _ => .session id
    | none, some path => .group path
    | none, none => .none
  { cursor, offset := v.offset }

/-- A line of news shown until it expires. -/
structure Banner where
  text : String
  shownAt : Nat
  deriving DecidableEq, Repr, Inhabited

/-- Lets something happen at most once per interval. -/
structure RateLimiter where
  intervalMs : Nat
  last : Option Nat := none
  deriving Repr, Inhabited

namespace RateLimiter

/-- A limiter whose first window has to pass before it fires. -/
def startingAt (intervalMs now : Nat) : RateLimiter := ⟨intervalMs, some now⟩

/-- Whether it fires at `now`; firing starts a new window. -/
def ready (r : RateLimiter) (now : Nat) : RateLimiter × Bool :=
  let due := r.last.all fun last => r.intervalMs ≤ now - last
  (if due then { r with last := some now } else r, due)

end RateLimiter

/-- The periodic chores of a tick and how often each may run. -/
structure TickLimits where
  logCheck : RateLimiter
  logMaintenance : RateLimiter
  prune : RateLimiter
  status : RateLimiter
  deriving Repr, Inhabited

/-- One session's state as seen in its pane. -/
structure Probe where
  id : String
  live : Bool
  /-- Digest of the pane's last lines; `none` if they could not be read. -/
  fingerprint : Option String
  hasPrompt : Bool
  deriving DecidableEq, Repr, Inhabited

/-- Changes to the set of sessions made by the user. -/
inductive LifecycleEvent where
  | created (s : Session)
  | forked (s : Session)
  | deleted (id : String) (kill : Bool)
  | bulkDeleted (ids : List String) (kill : Bool)
  /-- Undo the latest delete. -/
  | restored
  deriving Inhabited

/-- Everything the engine reacts to. -/
inductive Message where
  /-- The registry changed on disk. -/
  | storageChanged
  | lifecycle (event : LifecycleEvent)
  /-- The user came back from a session's pane. -/
  | statusUpdate (id : String)
  | tick
  | previewDebounce (id : String)
  | hookStatus (event : HookEvent)
  | reloadLoaded (version : Nat) (result : Except Error Snapshot)
  /-- `none` when the session has no live pane. -/
  | previewCaptured (id : String) (result : Except Error (Option String))
  | dirtyChecked (id : String) (result : Except Error Bool)
  | remoteChecked (id : String) (result : Except Error String)
  | reviewFetched (id : String) (result : Except Error (Option Review))
  | statusesProbed (result : Except Error (List Probe))
  | deletesPersisted (ids : List String) (result : Except Error Unit)
  | saveFailed (text : String)
  | failure (text : String)
  deriving Inhabited

/-- Slow work queued by a handler. -/
inductive Job where
  /-- Store the whole state, unless a reload or a newer save came since. -/
  | save (version seq : Nat) (sessions : List Session) (groups : GroupTree) (tasks : List Task)
  | load (version : Nat)
  | removeSessions (ids : List String)
  | capturePreview (id pane : String) (lines : Nat)
  | checkDirty (id dir : String)
  | lookupRemote (id dir : String)
  | fetchReview (id dir : String)
  /-- Look at the panes of the sessions, given as id, pane and tool. -/
  | probe (targets : List (String × String × Tool))
  | kill (panes : List String)
  | respawn (title : String) (spec : SpawnSpec)
  | previewDebounce (id : String) (delayMs : Nat)
  | saveViewState (state : ViewState)
  | checkLogs
  | maintainLogs (known : List String)
  deriving Inhabited

/-- The engine's state. -/
structure Engine where
  config : Config
  registry : Registry
  mux : Mux
  git : GitLookup
  /-- The instant the world's clock counts from. -/
  origin : Time.Stamp := World.epoch
  /-- The clock as the message being handled read it. -/
  clock : Nat := 0
  /-- Cache stamps taken so far. -/
  stamps : Nat := 0
  cache : TtlCache CacheValue := {}
  sessions : List Session := []
  groups : GroupTree := {}
  tasks : List Task := []
  rows : List Row := []
  selected : Nat := 0
  offset : Nat := 0
  /-- Rows shown at once; `0` shows all. -/
  height : Nat := 0
  reloading : Bool := false
  reloadVersion : Nat := 0
  restore : Option Restore := none
  /-- Sessions stored while a reload ran. -/
  forceSaved : List Session := []
  /-- Titles changed while a reload ran. -/
  pendingTitles : List (String × String) := []
  /-- Deleted ids a reload must not bring back, each with whether its removal was stored. -/
  pendingDeletes : List (String × Bool) := []
  saveSeq : Nat := 0
  /-- Deleted sessions, oldest first. -/
  undo : List Session := []
  pendingPreview : Option String := none
  inFlight : List (String × Field) := []
  lastNavigation : Nat := 0
  lastActivity : Nat := 0
  animations : Animations := {}
  hookHolds : List (String × Nat) := []
  fingerprints : List (String × String) := []
  probeInFlight : Bool := false
  tickCount : Nat := 0
  limits : TickLimits
  banner : Option Banner := none
  lastViewState : ViewState := {}
  /-- Jobs queued and not yet run. -/
  jobs : List Job := []
  /-- The fault that aborts the program, once a sum leaves a machine word. -/
  fault : Option String := none

/-- Set the value of a key in a table of pairs. -/
def putKey {α : Type} (tbl : List (String × α)) (k : String) (v : α) : List (String × α) :=
  if (tbl.lookup k).isSome then tbl.map fun p => if p.1 == k then (k, v) else p
  else tbl ++ [(k, v)]

/-- Remove a key from a table of pairs. -/
def dropKey {α : Type} (tbl : List (String × α)) (k : String) : List (String × α) :=
  tbl.filter (·.1 != k)

namespace Engine

/-- How long a status reported by a hook wins over the pane probe. -/
def hookHoldMs : Nat := 3000

/-- Lines read from a pane when probing its status. -/
def probeLines : Nat := 30

/-- Cached values untouched this long are dropped even for live sessions. -/
def cacheMaxAgeMs : Nat := 30 * 60 * 1000

/-- A fresh engine at `now`, before anything is loaded. -/
def new (config : Config) (registry : Registry) (mux : Mux) (git : GitLookup) (now : Nat) :
    Engine :=
  { config, registry, mux, git, clock := now, lastNavigation := now, lastActivity := now,
    limits :=
      { logCheck := ⟨config.logs.checkSecs * 1000, none⟩
        logMaintenance := .startingAt (config.logs.maintenanceSecs * 1000) now
        prune := .startingAt (config.engine.pruneSecs * 1000) now
        status := ⟨config.engine.statusRefreshMs, none⟩ } }

/-- The session with id `id`. -/
def session? (e : Engine) (id : String) : Option Session := e.sessions.find? (·.id == id)

/-- Change the session with id `id`. -/
def modifySession (e : Engine) (id : String) (f : Session → Session) : Engine :=
  { e with sessions := e.sessions.map fun s => if s.id == id then f s else s }

/-- The row under the cursor. -/
def selectedRow? (e : Engine) : Option Row := e.rows[e.selected]?

/-- The session under the cursor. -/
def selectedSession? (e : Engine) : Option Session :=
  match e.selectedRow? with
  | some (.session id _) => e.session? id
  | _ => none

/-- The id of the session under the cursor. -/
def selectedId? (e : Engine) : Option String := e.selectedSession?.map (·.id)

/-- The wall-clock instant of the engine's clock. -/
def wallNow (e : Engine) : Time.Stamp := e.origin.addMs e.clock

/-- Queue a job. -/
def spawn (e : Engine) (j : Job) : Engine := { e with jobs := e.jobs ++ [j] }

/-- Show a banner from now on. -/
def showBanner (e : Engine) (text : String) : Engine := { e with banner := some ⟨text, e.clock⟩ }

/-- Note that the user did something. -/
def markActivity (e : Engine) : Engine := { e with lastActivity := e.clock }

/-- Store the whole state in the background; nothing while reloading. The save happens only
if no reload starts and no newer save is scheduled before it runs. -/
def scheduleSave (e : Engine) : Engine :=
  if e.reloading then e
  else
    let seq := e.saveSeq + 1
    { e with saveSeq := seq }.spawn (.save e.reloadVersion seq e.sessions e.groups e.tasks)

/-- A save queued under reload version `version` as save number `seq` may still write: no
reload started and no newer save was scheduled since. -/
def saveIsCurrent (e : Engine) (version seq : Nat) : Bool :=
  e.reloadVersion == version && e.saveSeq == seq

/-- Note a navigation and arm the preview delay for the session under the cursor. -/
def onNavigation (e : Engine) : Engine :=
  let e := { e with lastNavigation := e.clock, lastActivity := e.clock,
                    pendingPreview := e.selectedId? }
  match e.pendingPreview with
  | some id => e.spawn (.previewDebounce id e.config.engine.previewDebounceMs)
  | none => e

/-- A new cache stamp. -/
def instant (e : Engine) : Instant := ⟨e.clock, e.stamps⟩

/-- The lifetime of a cache field. -/
def ttl (e : Engine) (f : Field) : Nat := e.config.cache.ttlMs f

/-- Store a value in the cache. -/
def cacheSet (e : Engine) (id : String) (f : Field) (v : CacheValue) : Engine :=
  { e with cache := e.cache.set e.instant id f v (e.ttl f), stamps := e.stamps + 1 }

/-- Drop a value from the cache. -/
def cacheDrop (e : Engine) (id : String) (f : Field) : Engine :=
  { e with cache := e.cache.invalidate id f }

/-- A fetch of `f` for `id` is out. -/
def isFetching (e : Engine) (id : String) (f : Field) : Bool := e.inFlight.contains (id, f)

/-- Claim the fetch of `f` for `id`: refused while the cached value is fresh or a fetch is
out. A stale entry is stamped again, so it stays shown but no longer looks due. -/
def beginFetch (e : Engine) (id : String) (f : Field) : Engine × Bool :=
  if e.cache.isFresh e.instant id f then (e, false)
  else if e.isFetching id f then (e, false)
  else
    let (cache, touched) := e.cache.touch e.instant id f (e.ttl f)
    ({ e with cache, stamps := if touched then e.stamps + 1 else e.stamps,
              inFlight := e.inFlight ++ [(id, f)] }, true)

/-- Release the fetch of `f` for `id`. -/
def endFetch (e : Engine) (id : String) (f : Field) : Engine :=
  { e with inFlight := e.inFlight.filter (· != (id, f)) }

end Engine

end AgentDeck
