import AgentDeck.Engine.Run

/-!
The engine at work beside its background jobs, and the registry they share.

The engine handles one message at a time, but the jobs it queues run whenever they get the
chance, in any order, and each sends its report back at any later point. A `Deck` holds the
engine with its queued jobs, what the registry file holds, the save that holds the save lock
until it writes, and the reports sent back and not yet handled. An `Event` is one thing that
happens: the engine handles a message from outside or a waiting report, the user calls on the
view, a queued job does its work, or the save holding the lock writes. The registry is taken
as the contents its file holds; each access to it is one event, as the registry's own lock
makes it, and may fail, leaving the contents as they were.

The save lock orders the full saves, the targeted removals and the immediate store of a new or
restored session. A save checks whether it is still current when it takes the lock and writes
later: nothing else that needs the lock runs in between, but the engine may handle other
messages and a load, which takes only the registry's lock, may read meanwhile. An event that
cannot happen in a deck (a job or report that is not there, a store that waits for the lock)
leaves it unchanged.
-/

namespace AgentDeck

/-- The outcome of a registry access that fails with `fault`, if it fails. -/
def outcome (fault : Option Error) : Except Error Unit :=
  match fault with
  | none => .ok ()
  | some err => .error err

/-- Change the registry's contents by `f`, unless the access fails. -/
def Contents.unless (c : Contents) (fault : Option Error) (f : Contents → Contents) : Contents :=
  if fault.isNone then f c else c

/-- Reports of the registry's jobs, which only the job itself sends. -/
def Message.fromRegistry : Message → Bool
  | .reloadLoaded .. | .deletesPersisted .. | .saveFailed .. => true
  | _ => false

/-- Jobs that take the save lock. -/
def Job.takesSaveLock : Job → Bool
  | .save .. | .removeSessions .. => true
  | _ => false

/-- The engine, its queued jobs, the registry and the reports on their way back. -/
structure Deck where
  engine : Engine
  /-- What the registry file holds. -/
  registry : Contents
  /-- The save that passed its check and holds the save lock: sessions, tree and tasks. -/
  writing : Option (List Session × GroupTree × List Task) := none
  /-- Reports sent back by jobs and not yet handled, in no particular order. -/
  inbox : List Message := []

/-- One thing that happens to a deck. -/
inductive Event where
  /-- The engine handles a message from outside; `fault` is how the store it asks for fails. -/
  | message (m : Message) (fault : Option Error) (clock : Nat)
  | call (c : Call) (clock : Nat)
  /-- The engine handles the `i`-th waiting report. -/
  | report (i : Nat) (clock : Nat)
  /-- The `i`-th queued job does its work; `fault` is how its access to the registry fails. -/
  | work (i : Nat) (fault : Option Error)
  /-- The save that holds the lock writes. -/
  | commit (fault : Option Error)

namespace Deck

/-- A deck whose fresh engine `e` has just started from the registry holding `c` and the
stored view state `v`. -/
def start (e : Engine) (c : Contents) (v : ViewState) : Deck :=
  { engine := e.boot (c.snapshot none) v, registry := c }

/-- Take the `i`-th job off the queue. -/
def dropJob (d : Deck) (i : Nat) : Deck :=
  { d with engine := { d.engine with jobs := d.engine.jobs.eraseIdx i } }

/-- The job `j`, taken off the queue, does its work. A save that is no longer current is
dropped; a current one takes the lock. -/
def perform (d : Deck) (j : Job) (fault : Option Error) : Deck :=
  match j with
  | .save version seq sessions tree tasks =>
    if d.engine.saveIsCurrent version seq then { d with writing := some (sessions, tree, tasks) }
    else d
  | .load version =>
    let result := match fault with
      | none => .ok (d.registry.snapshot none)
      | some err => .error err
    { d with inbox := d.inbox ++ [.reloadLoaded version result] }
  | .removeSessions ids =>
    { d with
      registry := d.registry.unless fault (·.dropSessions ids)
      inbox := d.inbox ++ [.deletesPersisted ids (outcome fault)] }
  | _ => d

/-- What one event does. -/
def step (d : Deck) : Event → Deck
  | .message m fault clock =>
    if m.fromRegistry then d
    else
      match d.engine.storedBy m with
      | none => { d with engine := d.engine.take (.message m (.ok ()) clock) }
      | some s =>
        if d.writing.isSome then d
        else
          { d with
            engine := d.engine.take (.message m (outcome fault) clock)
            registry := d.registry.unless fault (·.putSession s) }
  | .call c clock => { d with engine := d.engine.take (.call c clock) }
  | .report i clock =>
    match d.inbox[i]? with
    | some m =>
      { d with inbox := d.inbox.eraseIdx i, engine := d.engine.take (.message m (.ok ()) clock) }
    | none => d
  | .work i fault =>
    match d.engine.jobs[i]? with
    | some j => if j.takesSaveLock && d.writing.isSome then d else (d.dropJob i).perform j fault
    | none => d
  | .commit fault =>
    match d.writing with
    | some (sessions, tree, tasks) =>
      let failed := match fault with
        | none => []
        | some err => [Message.saveFailed err.text]
      { d with
        writing := none
        registry := d.registry.unless fault fun c => .ofSave sessions tree tasks c.updatedAt
        inbox := d.inbox ++ failed }
    | none => d

/-- What a sequence of events does. -/
def run (d : Deck) (evs : List Event) : Deck := evs.foldl step d

@[simp] theorem run_nil (d : Deck) : d.run [] = d := rfl

@[simp] theorem run_cons (d : Deck) (ev : Event) (evs : List Event) :
    d.run (ev :: evs) = (d.step ev).run evs := rfl

theorem run_append (d : Deck) (u v : List Event) : d.run (u ++ v) = (d.run u).run v := by
  simp [run, List.foldl_append]

/-- Nothing is left to happen by itself: no reload runs, no job is queued, no save holds the
lock and no report waits. -/
def Quiescent (d : Deck) : Prop :=
  d.engine.reloading = false ∧ d.engine.jobs = [] ∧ d.writing = none ∧ d.inbox = []

end Deck

/-- No registry access of the event fails. -/
def Event.faultless : Event → Bool
  | .message _ fault _ | .work _ fault | .commit fault => fault.isNone
  | .call .. | .report .. => true

end AgentDeck
