import AgentDeck.Engine.Tick
import AgentDeck.Logs

/-!
Running the engine: starting it from the registry, handling a message, and doing the queued
jobs.

A job does its slow work against the world and answers with the messages it would send
back. A queued save checks, when it runs, that no reload started and no newer save was
scheduled since it was queued; only then does it store the state.
-/

namespace AgentDeck

namespace Job

/-- Look at the panes of the sessions given as id, pane and tool. -/
def probeAll (mux : Mux) (targets : List (String × String × Tool)) : Act (List Probe) := do
  let live ← mux.livePanes
  targets.mapM fun (id, pane, tool) => do
    if !live.contains pane then return ⟨id, false, none, false⟩
    match ← Act.attempt (mux.capture pane Engine.probeLines) with
    | .ok content =>
      let digest := (content.stripEscapes).trimBlankEnd
      return ⟨id, true, some digest, Prompt.hasPrompt tool content⟩
    | .error _ => return ⟨id, true, none, false⟩

/-- Do a job for the engine `e`; answers the messages it sends back. -/
def run (e : Engine) (j : Job) : Act (List Message) := do
  match j with
  | .save version seq sessions groups tasks =>
    if !e.saveIsCurrent version seq then return []
    match ← Act.attempt (e.registry.save sessions groups tasks) with
    | .ok () => return []
    | .error err => return [.saveFailed err.text]
  | .load version => return [.reloadLoaded version (← Act.attempt e.registry.load)]
  | .removeSessions ids => return [.deletesPersisted ids (← Act.attempt (e.registry.remove ids))]
  | .capturePreview id pane lines =>
    let result ← Act.attempt do
      if ← e.mux.hasPane pane then return some (← e.mux.capture pane lines) else return none
    return [.previewCaptured id result]
  | .checkDirty id dir => return [.dirtyChecked id (← Act.attempt (e.git.isDirty dir))]
  | .lookupRemote id dir => return [.remoteChecked id (← Act.attempt (e.git.remoteUrl dir))]
  | .fetchReview id dir => return [.reviewFetched id (← Act.attempt (e.git.review dir))]
  | .probe targets => return [.statusesProbed (← Act.attempt (probeAll e.mux targets))]
  | .kill panes =>
    panes.foldlM (fun (out : List Message) pane => do
      if !(← e.mux.hasPane pane) then return out
      match ← Act.attempt (e.mux.kill pane) with
      | .ok () => return out
      | .error err => return out ++ [.failure ("Failed to stop " ++ pane ++ ": " ++ err.text)]) []
  | .respawn title spec =>
    if ← e.mux.hasPane spec.name then return []
    match ← Act.attempt (e.mux.spawn spec) with
    | .ok () => return []
    | .error err => return [.failure ("Failed to restart " ++ title ++ ": " ++ err.text)]
  | .previewDebounce id _ => return [.previewDebounce id]
  | .saveViewState v =>
    let _ ← Act.attempt (e.registry.saveViewState v)
    return []
  | .checkLogs =>
    let _ ← Act.attempt (PaneLogs.check ⟨e.registry.logsDir, e.config.logs⟩)
    return []
  | .maintainLogs known =>
    let _ ← Act.attempt (PaneLogs.maintain ⟨e.registry.logsDir, e.config.logs⟩ known)
    return []

end Job

namespace Engine

/-- Read the clock for the message about to be handled. -/
def readClock (e : Engine) : Act Engine := do
  let w ← get
  return { e with clock := w.clock, origin := w.origin }

/-- Take in the registry's snapshot `snap` and the stored view state `v`, and fetch the
selection's side data. -/
def boot (e : Engine) (snap : Snapshot) (v : ViewState) : Engine :=
  let e := (e.install snap (Restore.ofViewState v)).1
  let e := { e with lastViewState := e.viewState }
  match e.selectedId? with
  | some id => e.fetchSideData id
  | none => e

/-- Start from the registry and the stored view state. -/
def bootstrap (e : Engine) : Act Engine := do
  let e ← e.readClock
  let snap ← e.registry.load
  let v ← e.registry.loadViewState
  return e.boot snap v

/-- The session that handling `m` stores in the registry before anything else: a created or
forked one, or the one an undo brings back. -/
def storedBy (e : Engine) : Message → Option Session
  | .lifecycle (.created s) => some s
  | .lifecycle (.forked s) => some s
  | .lifecycle .restored => e.undoTarget?
  | _ => none

/-- Handle `m`, the write that `storedBy` asks for having gone as `stored`. -/
def react (e : Engine) (m : Message) (stored : Except Error Unit) : Engine :=
  match m with
  | .storageChanged => e.startReload
  | .lifecycle ev =>
    match ev with
    | .created s => e.addSession s .launching stored
    | .forked s => e.addSession s .forking stored
    | .deleted id kill => e.deleteSessions [id] kill
    | .bulkDeleted ids kill => e.deleteSessions ids kill
    | .restored =>
      match e.undoTarget? with
      | some s => e.restoreSession s stored
      | none => e
  | .statusUpdate id => e.onStatusUpdate id
  | .tick => e.tick
  | .previewDebounce id => e.onPreviewDebounce id
  | .hookStatus ev => e.onHookStatus ev
  | .reloadLoaded version result => e.finishReload version result
  | .previewCaptured id result => e.onPreviewCaptured id result
  | .dirtyChecked id result => e.onDirtyChecked id result
  | .remoteChecked id result => e.onRemoteChecked id result
  | .reviewFetched id result => e.onReviewFetched id result
  | .statusesProbed result => e.onStatusesProbed result
  | .deletesPersisted ids result => e.onDeletesPersisted ids result
  | .saveFailed text => e.showBanner ("Save failed: " ++ text)
  | .failure text => e.showBanner text

/-- Handle one message. -/
def handle (e : Engine) (m : Message) : Act Engine := do
  let e ← e.readClock
  match e.storedBy m with
  | some s => return e.react m (← Act.attempt (e.registry.upsert s))
  | none => return e.react m (.ok ())

end Engine

/-- What reaches the engine from outside, with the clock as it reads it: a message, handled
after the write it asks for went as `stored`, or a call on the view. -/
inductive Input where
  | message (m : Message) (stored : Except Error Unit) (clock : Nat)
  | call (c : Call) (clock : Nat)

namespace Engine

/-- Take in one input. -/
def take (e : Engine) : Input → Engine
  | .message m stored clock => { e with clock }.react m stored
  | .call c clock => { e with clock }.call c

/-- Do every queued job in order; answers the engine without them and the messages they
sent back. -/
def runJobs (e : Engine) : Act (Engine × List Message) := do
  let jobs := e.jobs
  let e := { e with jobs := [] }
  let msgs ← jobs.foldlM (fun (out : List Message) j => do return out ++ (← j.run e)) []
  return (e, msgs)

end Engine

end AgentDeck
