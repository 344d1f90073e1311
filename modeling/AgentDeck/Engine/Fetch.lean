import AgentDeck.Engine.View

/-!
Side data of the selected session: its pane preview and, for a session in a worktree,
whether the worktree is dirty, its remote and its review.

A fetch is claimed before its job is queued and released when its result arrives, so one
field of one session never has two fetches out. A result for a session that is gone by then
is dropped. A review that moves on (opened, merged) carries the session's linked tasks along.
-/

namespace AgentDeck

namespace Engine

/-- Fetch the preview of `id`, if it is due. -/
def fetchPreview (e : Engine) (id : String) : Engine :=
  let (e, claimed) := e.beginFetch id .preview
  if !claimed then e
  else
    match e.session? id with
    | some s => e.spawn (.capturePreview id s.paneName e.config.engine.previewLines)
    | none => e.endFetch id .preview

/-- Fetch every piece of side data `id` is due for. -/
def fetchSideData (e : Engine) (id : String) : Engine :=
  match e.session? id with
  | none => e
  | some s =>
    let e := e.fetchPreview id
    if s.worktree.isNone then e
    else
      let dir := s.gitDir
      let claim (e : Engine) (f : Field) (j : Job) : Engine :=
        let (e, claimed) := e.beginFetch id f
        if claimed then e.spawn j else e
      let e := claim e .worktreeDirty (.checkDirty id dir)
      let e := claim e .worktreeRemote (.lookupRemote id dir)
      claim e .reviewStatus (.fetchReview id dir)

/-- The preview delay of `id` ran out: fetch, unless the cursor moved on meanwhile. -/
def onPreviewDebounce (e : Engine) (id : String) : Engine :=
  if e.pendingPreview != some id then e
  else { e with pendingPreview := none }.fetchSideData id

/-- A preview arrived; no pane drops the one shown. -/
def onPreviewCaptured (e : Engine) (id : String) (result : Except Error (Option String)) :
    Engine :=
  let e := e.endFetch id .preview
  if (e.session? id).isNone then e
  else
    match result with
    | .ok (some text) => e.cacheSet id .preview (.preview text)
    | .ok none => e.cacheDrop id .preview
    | .error _ => e

/-- The dirty flag of a worktree arrived. -/
def onDirtyChecked (e : Engine) (id : String) (result : Except Error Bool) : Engine :=
  let e := e.endFetch id .worktreeDirty
  if (e.session? id).isNone then e
  else
    match result with
    | .ok d => e.cacheSet id .worktreeDirty (.dirty d)
    | .error err => e.showBanner ("Worktree check failed: " ++ err.text)

/-- The remote of a worktree arrived. -/
def onRemoteChecked (e : Engine) (id : String) (result : Except Error String) : Engine :=
  let e := e.endFetch id .worktreeRemote
  if (e.session? id).isNone then e
  else
    match result with
    | .ok url => e.cacheSet id .worktreeRemote (.remote url)
    | .error err => e.showBanner ("Remote lookup failed: " ++ err.text)

/-- Move the tasks linked to `id` along with its review; tells whether any moved. -/
def advanceTasks (tasks : List Task) (id : String) (r : Review) : List Task × Bool :=
  let step (t : Task) : Option TaskStatus :=
    if t.isLinkedTo id && !t.orphaned then t.reviewStep r.state else none
  (tasks.map fun t => match step t with
    | some next => { t with status := next }
    | none => t, tasks.any fun t => (step t).isSome)

/-- The review of a worktree arrived. -/
def onReviewFetched (e : Engine) (id : String) (result : Except Error (Option Review)) : Engine :=
  let e := e.endFetch id .reviewStatus
  if (e.session? id).isNone then e
  else
    match result with
    | .error err => e.showBanner ("PR status failed: " ++ err.text)
    | .ok review =>
      let e := e.cacheSet id .reviewStatus (.review review)
      match review with
      | none => e
      | some r =>
        let (tasks, advanced) := advanceTasks e.tasks id r
        if advanced then { e with tasks }.scheduleSave else e

/-- The user came back from the pane of `id`: its content certainly changed. -/
def onStatusUpdate (e : Engine) (id : String) : Engine :=
  match e.session? id with
  | none => e
  | some _ =>
    let now := e.wallNow
    let e := e.modifySession id fun s => { s with lastAccessedAt := some now }
    ((e.cacheDrop id .preview).fetchPreview id).scheduleSave

end Engine

end AgentDeck
