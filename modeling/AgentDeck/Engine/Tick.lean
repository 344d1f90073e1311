import AgentDeck.Engine.Lifecycle

/-!
The periodic tick and the status of sessions.

A tick runs its chores in a fixed order: animations, banner expiry, storing the view state
every few ticks, pane log upkeep, pruning, and, once the user has stopped moving, probing the
panes and refreshing the selection's side data while the user is active.

A session's status comes from two sources. A hook report wins for a while after it arrives.
Otherwise a probe decides: no pane is idle, a prompt is waiting, and a pane whose content
changed since the previous probe is running, one that did not is idle.
-/

namespace AgentDeck

namespace Engine

/-- The tool and latest preview of a session, or nothing if it is gone. -/
def readiness (e : Engine) (id : String) : Option (Tool × Option String) :=
  (e.session? id).map fun s =>
    let preview := match e.cache.getStamped? id .preview with
      | some (.preview text, _) => some text
      | _ => none
    (s.tool, preview)

/-- Advance the spinner, end finished animations, and keep previews coming for the rest. -/
def animate (e : Engine) : Engine :=
  if e.animations.isEmpty then e
  else
    let e := { e with animations := e.animations.advanceFrame.settle e.clock e.readiness }
    e.animations.ids.foldl fetchPreview e

/-- Store the view state if it changed since it was last stored. -/
def persistViewState (e : Engine) : Engine :=
  let v := e.viewState
  if v == e.lastViewState then e
  else { e with lastViewState := v }.spawn (.saveViewState v)

/-- Queue pane log upkeep when due: the full pass, else the size check. -/
def maintainLogs (e : Engine) : Engine :=
  if !e.config.logs.enabled then e
  else
    let (lm, full) := e.limits.logMaintenance.ready e.clock
    let e := { e with limits := { e.limits with logMaintenance := lm } }
    if full then e.spawn (.maintainLogs (e.sessions.map (·.id)))
    else
      let (lc, check) := e.limits.logCheck.ready e.clock
      let e := { e with limits := { e.limits with logCheck := lc } }
      if check then e.spawn .checkLogs else e

/-- Drop what is kept per session for sessions that are gone, and cache entries untouched
for long. -/
def prune (e : Engine) : Engine :=
  let known (id : String) : Bool := e.sessions.any (·.id == id)
  let cache := (e.cache.prune known).1
  let cache := (cache.pruneOlderThan e.instant cacheMaxAgeMs).1
  { e with
    cache
    fingerprints := e.fingerprints.filter (known ·.1)
    hookHolds := e.hookHolds.filter fun p => known p.1 && e.clock - p.2 < hookHoldMs
    inFlight := e.inFlight.filter (known ·.1)
    animations := e.animations.retain known }

/-- Probe the panes of all sessions in the background. -/
def spawnStatusProbe (e : Engine) : Engine :=
  { e with probeInFlight := true }.spawn
    (.probe (e.sessions.map fun (s : Session) => (s.id, s.paneName, s.tool)))

/-- The chores of a tick that do not wait for the user: animations, banner expiry, storing
the view state every few ticks, pane log upkeep and pruning. -/
def chores (e : Engine) : Engine :=
  let e := { e with tickCount := e.tickCount + 1 }.animate
  let expired := e.banner.any fun b => e.config.engine.bannerSecs * 1000 ≤ e.clock - b.shownAt
  let e := if expired then { e with banner := none } else e
  let every := max e.config.engine.uiPersistEveryTicks 1
  let e := if e.tickCount % every == 0 then e.persistViewState else e
  let e := e.maintainLogs
  let (pl, due) := e.limits.prune.ready e.clock
  let e := { e with limits := { e.limits with prune := pl } }
  if due then e.prune else e

/-- Probe the panes when due, unless a probe is out or there are no sessions. -/
def probeIfDue (e : Engine) : Engine :=
  if e.probeInFlight || e.sessions.isEmpty then e
  else
    let (sl, ready) := e.limits.status.ready e.clock
    let e := { e with limits := { e.limits with status := sl } }
    if ready then e.spawnStatusProbe else e

/-- Run the chores of one tick; once the user has stopped moving, probe the panes, and while
the user is active refresh the selection's side data. -/
def tick (e : Engine) : Engine :=
  let e := e.chores
  if e.clock - e.lastNavigation < e.config.engine.navigationSettleMs then e
  else
    let e := e.probeIfDue
    if e.clock - e.lastActivity < e.config.engine.userActivityWindowMs then
      match e.selectedId? with
      | some id => e.fetchSideData id
      | none => e
    else e

/-- A hook report for the session still counts. -/
def isHeld (e : Engine) (id : String) : Bool :=
  (e.hookHolds.lookup id).any fun at_ => e.clock - at_ < hookHoldMs

/-- The status a probe gives a live session, from its previous fingerprint. -/
def probedStatus (p : Probe) (previous : Option String) (current : Status) : Status :=
  if p.hasPrompt then .waiting
  else
    match previous, p.fingerprint with
    | some prev, some fp => if prev != fp then .running else .idle
    | _, _ => current

/-- Take in one probe. -/
def applyProbe (e : Engine) (p : Probe) : Engine :=
  match e.session? p.id with
  | none => e
  | some s =>
    if e.isHeld p.id then e
    else if !p.live then
      { e with fingerprints := dropKey e.fingerprints p.id }.modifySession p.id
        fun s => { s with status := .idle }
    else
      let previous := p.fingerprint.bind fun _ => e.fingerprints.lookup p.id
      let fingerprints := match p.fingerprint with
        | some fp => putKey e.fingerprints p.id fp
        | none => e.fingerprints
      let status := probedStatus p previous s.status
      { e with fingerprints }.modifySession p.id fun s => { s with status }

/-- Probes of the panes arrived. -/
def onStatusesProbed (e : Engine) (result : Except Error (List Probe)) : Engine :=
  let e := { e with probeInFlight := false }
  match result with
  | .ok probes => probes.foldl applyProbe e
  | .error _ => e

/-- The conversation slot of a session's tool, if it has one: set it to `conv`; tells whether
it changed. -/
def learnConversation (s : Session) (conv : String) : Session × Bool :=
  match s.tool with
  | .claude =>
    if s.claudeConversation == some conv then (s, false)
    else ({ s with claudeConversation := some conv }, true)
  | .gemini =>
    if s.geminiConversation == some conv then (s, false)
    else ({ s with geminiConversation := some conv }, true)
  | _ => (s, false)

/-- A hook reported on a session. -/
def onHookStatus (e : Engine) (ev : HookEvent) : Engine :=
  let id := ev.instanceId
  match e.session? id with
  | none => e
  | some s =>
    let s := { s with status := match ev.kind with
      | .activity => .running
      | .stop => .waiting }
    let (s, learned) := match ev.conversation with
      | some conv => learnConversation s conv
      | none => (s, false)
    let e := e.modifySession id fun _ => s
    let e := { e with hookHolds := putKey e.hookHolds id e.clock,
                      animations := e.animations.finishStartup id }
    let e := if e.selectedId? == some id then (e.cacheDrop id .preview).fetchPreview id else e
    if learned then e.scheduleSave else e

end Engine

end AgentDeck
