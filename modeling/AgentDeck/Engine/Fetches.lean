import AgentDeck.Engine.Run

/-!
The engine beside the fetches of side data it sends out.

A fetch job, once queued, runs whenever it gets the chance and sends back one result, which the
engine handles at some later point; nothing cancels it. Until then the fetch is out. The engine
meanwhile handles any other message and any call on the view, and the other jobs it queues
finish in any order. A result comes only from its own fetch: an `FetchEvent.input` that is a
result of a fetch is not something that can happen, and leaves the engine as it is.
-/

namespace AgentDeck

/-- The session and field a job fetches, if it is a fetch. -/
def Job.fetchKey? : Job → Option (String × Field)
  | .capturePreview id _ _ => some (id, .preview)
  | .checkDirty id _ => some (id, .worktreeDirty)
  | .lookupRemote id _ => some (id, .worktreeRemote)
  | .fetchReview id _ => some (id, .reviewStatus)
  | _ => none

/-- The session and field a message answers, if it is the result of a fetch. -/
def Message.fetchKey? : Message → Option (String × Field)
  | .previewCaptured id _ => some (id, .preview)
  | .dirtyChecked id _ => some (id, .worktreeDirty)
  | .remoteChecked id _ => some (id, .worktreeRemote)
  | .reviewFetched id _ => some (id, .reviewStatus)
  | _ => none

/-- One thing that happens to the engine beside its fetches. -/
inductive FetchEvent where
  /-- The engine takes an input that is not the result of a fetch. -/
  | input (i : Input)
  /-- The `i`-th queued job, which fetches nothing, is done. -/
  | finish (i : Nat)
  /-- The `i`-th queued job, a fetch, sends back `m` and the engine handles it. -/
  | report (i : Nat) (m : Message) (clock : Nat)

namespace Engine

/-- The fetches queued and not yet answered, by session and field, in the order they were
queued. -/
def outstanding (e : Engine) : List (String × Field) := e.jobs.filterMap Job.fetchKey?

/-- What one event does. -/
def fetchStep (e : Engine) : FetchEvent → Engine
  | .input (.message m stored clock) =>
    if (m.fetchKey?).isSome then e else e.take (.message m stored clock)
  | .input (.call c clock) => e.take (.call c clock)
  | .finish i =>
    match e.jobs[i]? with
    | some j => if (j.fetchKey?).isNone then { e with jobs := e.jobs.eraseIdx i } else e
    | none => e
  | .report i m clock =>
    match e.jobs[i]? with
    | some j =>
      if (j.fetchKey?).isSome && j.fetchKey? == m.fetchKey? then
        { e with jobs := e.jobs.eraseIdx i }.take (.message m (.ok ()) clock)
      else e
    | none => e

/-- What a sequence of events does. -/
def fetchRun (e : Engine) (evs : List FetchEvent) : Engine := evs.foldl fetchStep e

@[simp] theorem fetchRun_nil (e : Engine) : e.fetchRun [] = e := rfl

@[simp] theorem fetchRun_cons (e : Engine) (ev : FetchEvent) (evs : List FetchEvent) :
    e.fetchRun (ev :: evs) = (e.fetchStep ev).fetchRun evs := rfl

end Engine

end AgentDeck
