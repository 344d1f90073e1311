import AgentDeck.Hook.Event
import AgentDeck.Json.Read
import AgentDeck.Text.Blank
import AgentDeck.Config
import AgentDeck.World

/-!
Watching the directory hooks drop their reports in.

A hook writes `<id>.active` when the agent starts on a prompt and `<id>.stop` when it waits
for input; the file holds a small JSON envelope. Every write of such a file arms a deadline
for it, and when the deadline passes the file is read: a file that is gone, unchanged since
it was last taken in, blank (its writer has not flushed yet) or not an envelope is passed
over, anything else becomes one report. A report's file is removed once a grace period has
passed, unless it was written again meanwhile. Starting the watch first removes report files
left behind for longer than the stale age.

Time is the world's clock: writes arm deadlines, and letting time pass fires what is due, in
order of the deadlines.
-/

namespace AgentDeck.Watch

open AgentDeck.Time

/-- The kind of report a file name stands for, from its extension. -/
def reportKind? (path : String) : Option HookKind :=
  match Path.extension? path with
  | some "active" => some .activity
  | some "stop" => some .stop
  | _ => none

/-- The envelope a hook writes; every member may be left out. -/
def envelopeShape : Json.Shape :=
  .record "Envelope"
    [("instance_id", .text "a string", some (.str "")),
     ("session_id", .opt (.text "a string"), some .null),
     ("event", .text "a string", some (.str "")),
     ("cwd", .opt (.text "path string"), some .null),
     ("timestamp", .opt (.signed "i64" (-9223372036854775808) 9223372036854775807), some .null)]

/-- The report a file at `path` holds. A blank instance id names the session by the file's
stem; an empty conversation id or directory counts as none, and so does a timestamp outside
the range of dates. -/
def readReport (path : String) (kind : HookKind) (content : String) :
    Except Json.ReadError HookEvent := do
  let v ← Json.readDocument envelopeShape content
  let text (k : String) : Option String := (v.field? k).bind Json.asString?
  let given := (text "instance_id").getD ""
  let nonEmpty (s : Option String) : Option String := s.bind fun t => if t.isEmpty then none else some t
  return {
    instanceId := if given.isBlankText then (Path.fileStem? path).getD "" else given
    conversation := nonEmpty (text "session_id")
    kind
    rawEvent := (text "event").getD ""
    cwd := nonEmpty (text "cwd")
    timestamp := ((v.field? "timestamp").bind Json.asInt?).bind Stamp.ofUnix }

/-- `tbl` with `k` bound to `v`, in place when it was bound already. -/
def rebind {α : Type} (tbl : List (String × α)) (k : String) (v : α) : List (String × α) :=
  if tbl.any (·.1 == k) then tbl.map fun p => if p.1 == k then (k, v) else p
  else tbl ++ [(k, v)]

/-- `tbl` without `k`. -/
def unbind {α : Type} (tbl : List (String × α)) (k : String) : List (String × α) :=
  tbl.filter (·.1 != k)

/-- The state of a watch over the report directory. -/
structure ReportWatch where
  dir : String
  debounceMs : Nat
  graceMs : Nat
  /-- Files written, with the instant each is due to be read. -/
  pending : List (String × Nat) := []
  /-- The time each file had when it was last taken in. -/
  processed : List (String × Nat) := []
  /-- Files to remove, with the instant due and the time they had when taken in. -/
  deletions : List (String × Nat × Nat) := []
  /-- Reports taken in so far, oldest first. -/
  reports : List HookEvent := []

namespace ReportWatch

/-- Remove the report files of `dir` older than `maxAgeMs`; nothing is done when the
directory cannot be listed, and a file that cannot be removed stays. -/
def sweepStale (dir : String) (maxAgeMs : Nat) : Act Unit := do
  match ← Act.attempt (Act.list dir) with
  | .error _ => pure ()
  | .ok names =>
    for n in names do
      let p := Path.join dir n
      if (reportKind? p).isSome then
        match ← Act.attempt (Act.ageOf p) with
        | .ok age =>
          if maxAgeMs ≤ age then
            let _ ← Act.attempt (Act.removeFile p)
        | .error _ => pure ()

/-- Make the directory, sweep stale files, and begin watching. -/
def start (dir : String) (cfg : WatcherConfig) : Act ReportWatch := do
  Act.mkdirAll dir
  sweepStale dir (cfg.statusStaleSecs * 1000)
  return { dir, debounceMs := cfg.statusDebounceMs, graceMs := cfg.statusDeleteGraceMs }

/-- A file at `path` was created or changed: arm its deadline if it is a report file. -/
def noteWrite (r : ReportWatch) (now : Nat) (path : String) : ReportWatch :=
  if (reportKind? path).isSome then { r with pending := rebind r.pending path (now + r.debounceMs) }
  else r

/-- Read the file at `path` and take in its report, if it holds a new one. -/
def process (r : ReportWatch) (now : Nat) (path : String) : Act ReportWatch := do
  let some kind := reportKind? path | return r
  let .ok entry ← Act.attempt (Act.stat path) | return r
  let mtime := entry.mtime
  if r.processed.lookup path == some mtime then return r
  let .ok content ← Act.attempt (Act.readText path) | return r
  if content.isBlankText then return r
  let .ok ev := readReport path kind content | return r
  return { r with
    reports := r.reports ++ [ev]
    processed := rebind r.processed path mtime
    deletions := rebind r.deletions path (now + r.graceMs, mtime) }

/-- Remove a taken-in file unless it was written again since. -/
def removeIfUnchanged (r : ReportWatch) (path : String) (mtime : Nat) : Act ReportWatch := do
  match ← Act.attempt (Act.stat path) with
  | .ok e =>
    if e.mtime == mtime then
      let _ ← Act.attempt (Act.removeFile path)
      return { r with processed := unbind r.processed path }
    else return r
  | .error _ => return { r with processed := unbind r.processed path }

/-- Read every file due by `now`, then remove every file whose grace period is over. -/
def fireDue (r : ReportWatch) (now : Nat) : Act ReportWatch := do
  let due := (r.pending.filter (·.2 ≤ now)).map (·.1)
  let r := { r with pending := r.pending.filter (now < ·.2) }
  let r ← due.foldlM (fun r p => r.process now p) r
  let expired := r.deletions.filter (·.2.1 ≤ now)
  let r := { r with deletions := r.deletions.filter (now < ·.2.1) }
  expired.foldlM (fun r (p, _, m) => r.removeIfUnchanged p m) r

/-- The earliest instant something is due. -/
def nextDue (r : ReportWatch) : Option Nat :=
  (r.pending.map (·.2) ++ r.deletions.map (·.2.1)).min?

/-- Let time pass up to `target`, firing what falls due on the way; each firing takes at
least one entry off the lists, and reading a file adds at most one, so `fuel` twice the
entries suffices. -/
def runUntil (r : ReportWatch) (target : Nat) : Nat → Act ReportWatch
  | 0 => pure r
  | fuel + 1 => do
    let now := (← get).clock
    match r.nextDue with
    | some at_ =>
      if at_ ≤ target then
        if now < at_ then Act.sleep (at_ - now)
        let r ← r.fireDue (max now at_)
        r.runUntil target fuel
      else do
        if now < target then Act.sleep (target - now)
        return r
    | none => do
      if now < target then Act.sleep (target - now)
      return r

/-- Let `ms` milliseconds pass. -/
def wait (r : ReportWatch) (ms : Nat) : Act ReportWatch := do
  let now := (← get).clock
  r.runUntil (now + ms) (2 * (r.pending.length + r.deletions.length) + 1)

end ReportWatch

end AgentDeck.Watch
