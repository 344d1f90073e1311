import AgentDeck.Agent.Prompt

/-!
Animations shown beside a session while it starts, resumes or forks.

Each kind is kept apart, so a session can fork and launch at once; the most specific one is
shown (forking, then resuming, then launching). Starting and resuming end when the session
is gone, when a fail-safe time has passed, or when the session looks ready: a tool without a
readiness test after a fixed time, any other once its preview shows it ready, but never
within a short grace time after the start. Forking ends after one second.
-/

namespace AgentDeck

/-- A kind of animation. -/
inductive Animation where
  | launching
  | resuming
  | forking
  deriving DecidableEq, Repr, Inhabited

namespace Animation

/-- The shown label. -/
def label : Animation → String
  | .launching => "launching"
  | .resuming => "resuming"
  | .forking => "forking"

/-- Spinner frames, shown in turn. -/
def frames : List String := ["⠋", "⠙", "⠹", "⠸", "⠼", "⠴", "⠦", "⠧", "⠇", "⠏"]

/-- Least time a tool without a readiness test stays launching, in milliseconds. -/
def plainMinimumMs : Nat := 1500

/-- Time after a start during which a ready-looking preview may predate it. -/
def readinessGraceMs : Nat := 500

/-- How long forking is shown. -/
def forkMs : Nat := 1000

/-- Time after which launching ends regardless. -/
def launchFailsafeMs : Nat := 15000

/-- Time after which resuming ends regardless. -/
def resumeFailsafeMs : Nat := 20000

/-- A session of `tool` with `preview` has finished starting `elapsed` ms after its start. -/
def startupComplete (tool : Tool) (preview : Option String) (elapsed : Nat) : Bool :=
  if !Prompt.hasReadinessHeuristic tool then plainMinimumMs ≤ elapsed
  else readinessGraceMs ≤ elapsed && preview.any (Prompt.isReady tool)

end Animation

/-- Running animations: start instants by session id, per kind, and the spinner frame. -/
structure Animations where
  launching : List (String × Nat) := []
  resuming : List (String × Nat) := []
  forking : List (String × Nat) := []
  frame : Nat := 0
  deriving Repr, Inhabited

namespace Animations

/-- Set the start of `id` in a table. -/
def stamp (tbl : List (String × Nat)) (id : String) (now : Nat) : List (String × Nat) :=
  if (tbl.lookup id).isSome then tbl.map fun p => if p.1 == id then (id, now) else p
  else tbl ++ [(id, now)]

/-- Start an animation of `kind` for `id` at `now`. -/
def start (a : Animations) (kind : Animation) (id : String) (now : Nat) : Animations :=
  match kind with
  | .launching => { a with launching := stamp a.launching id now }
  | .resuming => { a with resuming := stamp a.resuming id now }
  | .forking => { a with forking := stamp a.forking id now }

/-- End launching and resuming of `id`, as when a hook shows the agent is up. -/
def finishStartup (a : Animations) (id : String) : Animations :=
  { a with launching := a.launching.filter (·.1 != id), resuming := a.resuming.filter (·.1 != id) }

/-- End every animation of `id`. -/
def clear (a : Animations) (id : String) : Animations :=
  { a.finishStartup id with forking := a.forking.filter (·.1 != id) }

/-- Keep the animations of the ids `keep` accepts. -/
def retain (a : Animations) (keep : String → Bool) : Animations :=
  { a with launching := a.launching.filter (keep ·.1), resuming := a.resuming.filter (keep ·.1),
           forking := a.forking.filter (keep ·.1) }

/-- The most specific animation of `id`. -/
def kindOf (a : Animations) (id : String) : Option Animation :=
  if (a.forking.lookup id).isSome then some .forking
  else if (a.resuming.lookup id).isSome then some .resuming
  else if (a.launching.lookup id).isSome then some .launching
  else none

/-- Ids with any animation, sorted. -/
def ids (a : Animations) : List String :=
  ((a.launching ++ a.resuming ++ a.forking).map (·.1)).mergeSort (fun x y => !(y < x)) |>.eraseDups

/-- No animation runs. -/
def isEmpty (a : Animations) : Bool := a.launching.isEmpty && a.resuming.isEmpty && a.forking.isEmpty

/-- Show the next spinner frame. -/
def advanceFrame (a : Animations) : Animations :=
  { a with frame := (a.frame + 1) % Animation.frames.length }

/-- The spinner frame shown. -/
def frameText (a : Animations) : String := Animation.frames.getD a.frame ""

/-- End the animations whose session is ready or whose time is up, at `now`; `lookup`
gives a session's tool and latest preview, or nothing for a session that is gone. -/
def settle (a : Animations) (now : Nat) (lookup : String → Option (Tool × Option String)) :
    Animations :=
  let startupDone (failsafe : Nat) (p : String × Nat) : Bool :=
    let elapsed := now - p.2
    match lookup p.1 with
    | none => true
    | some (tool, preview) => failsafe ≤ elapsed || Animation.startupComplete tool preview elapsed
  { a with launching := a.launching.filter fun p => !startupDone Animation.launchFailsafeMs p,
           resuming := a.resuming.filter fun p => !startupDone Animation.resumeFailsafeMs p,
           forking := a.forking.filter fun p => now - p.2 < Animation.forkMs }

end Animations

end AgentDeck
