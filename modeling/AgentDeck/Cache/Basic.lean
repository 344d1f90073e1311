import AgentDeck.Forge.Review

/-!
Side data kept per session, each field with its own lifetime.

A session's pane preview, whether its worktree is dirty, its remote, and its review are
looked up in the background and cached here. An entry is fresh while less time than its
lifetime has passed since it was stamped; a stale entry stays readable with its stamp, so
that a view can keep the last known value while a refresh runs. Touching an entry stamps it
again without changing its value: it marks a lookup in flight.

Time is read from a clock of milliseconds; two stamps taken one after the other are told
apart by a sequence number even within one millisecond.
-/

namespace AgentDeck

/-- A kind of side data. -/
inductive Field where
  | preview
  | worktreeDirty
  | worktreeRemote
  | reviewStatus
  deriving DecidableEq, Repr, Inhabited

namespace Field

/-- Every field, in declaration order. -/
def all : List Field := [.preview, .worktreeDirty, .worktreeRemote, .reviewStatus]

/-- The displayed name. -/
def name : Field → String
  | .preview => "preview"
  | .worktreeDirty => "worktree-dirty"
  | .worktreeRemote => "worktree-remote"
  | .reviewStatus => "review-status"

/-- The field of a displayed name. -/
def ofName? (s : String) : Option Field := all.find? (·.name == s)

@[simp] theorem ofName?_name (f : Field) : ofName? f.name = some f := by
  cases f <;> rfl

/-- Lifetime in milliseconds when the configuration sets none: a preview goes stale within
seconds, a remote practically never changes. -/
def defaultTtlMs : Field → Nat
  | .preview => 2000
  | .worktreeDirty => 10000
  | .worktreeRemote => 300000
  | .reviewStatus => 60000

end Field

/-- A cached piece of side data. -/
inductive CacheValue where
  | preview (text : String)
  | dirty (flag : Bool)
  | remote (url : String)
  | review (info : Option Review)
  deriving DecidableEq, Repr, Inhabited

/-- A reading of the clock: milliseconds, and the number of readings before it. -/
structure Instant where
  ms : Nat
  seq : Nat
  deriving DecidableEq, Repr, Inhabited

/-- Milliseconds from `earlier` to `later`, zero if `later` is not later. -/
def Instant.since (later earlier : Instant) : Nat := later.ms - earlier.ms

/-- A value, when it was stamped, and how long it stays fresh. -/
structure Entry (α : Type) where
  value : α
  stampedAt : Instant
  ttlMs : Nat
  deriving Repr, Inhabited

/-- The entry is fresh at `now`. -/
def Entry.isFresh {α : Type} (e : Entry α) (now : Instant) : Bool := now.since e.stampedAt < e.ttlMs

/-- Entries by session id, then by field; an id without fields is not kept. -/
structure TtlCache (α : Type) where
  entries : List (String × List (Field × Entry α)) := []
  deriving Repr, Inhabited

namespace TtlCache

variable {α : Type}

/-- The entry of `id` and `f`, fresh or not. -/
def entry? (c : TtlCache α) (id : String) (f : Field) : Option (Entry α) :=
  (c.entries.lookup id) >>= fun fs => fs.lookup f

/-- The value, if it is fresh at `now`. -/
def get? (c : TtlCache α) (now : Instant) (id : String) (f : Field) : Option α :=
  match c.entry? id f with
  | some e => if e.isFresh now then some e.value else none
  | none => none

/-- The value and its stamp, fresh or not. -/
def getStamped? (c : TtlCache α) (id : String) (f : Field) : Option (α × Instant) :=
  (c.entry? id f).map fun e => (e.value, e.stampedAt)

/-- A fresh entry exists. -/
def isFresh (c : TtlCache α) (now : Instant) (id : String) (f : Field) : Bool :=
  match c.entry? id f with
  | some e => e.isFresh now
  | none => false

/-- The fields of `id`. -/
def fieldsOf (c : TtlCache α) (id : String) : List (Field × Entry α) := (c.entries.lookup id).getD []

/-- Replace the fields of `id`; no fields drop the id. -/
def setFields (c : TtlCache α) (id : String) (fs : List (Field × Entry α)) : TtlCache α :=
  let rest := c.entries.filter (·.1 != id)
  if fs.isEmpty then ⟨rest⟩
  else if (c.entries.lookup id).isSome then
    ⟨c.entries.map fun p => if p.1 == id then (id, fs) else p⟩
  else ⟨c.entries ++ [(id, fs)]⟩

/-- Store a value stamped `now`. -/
def set (c : TtlCache α) (now : Instant) (id : String) (f : Field) (v : α) (ttlMs : Nat) :
    TtlCache α :=
  let fs := (c.fieldsOf id).filter (·.1 != f)
  c.setFields id (fs ++ [(f, ⟨v, now, ttlMs⟩)])

/-- Stamp an existing entry again with a new lifetime; tells whether there was one. -/
def touch (c : TtlCache α) (now : Instant) (id : String) (f : Field) (ttlMs : Nat) :
    TtlCache α × Bool :=
  match c.entry? id f with
  | some _ =>
    (c.setFields id ((c.fieldsOf id).map fun (g, e) =>
      if g == f then (g, { e with stampedAt := now, ttlMs := ttlMs }) else (g, e)), true)
  | none => (c, false)

/-- Drop one entry. -/
def invalidate (c : TtlCache α) (id : String) (f : Field) : TtlCache α :=
  if (c.entries.lookup id).isSome then c.setFields id ((c.fieldsOf id).filter (·.1 != f)) else c

/-- Drop every entry of `id`. -/
def invalidateEntity (c : TtlCache α) (id : String) : TtlCache α :=
  ⟨c.entries.filter (·.1 != id)⟩

/-- Drop every entry. -/
def invalidateAll (c : TtlCache α) : TtlCache α := { c with entries := [] }

/-- Drop the ids that `keep` rejects; answers how many were dropped. -/
def prune (c : TtlCache α) (keep : String → Bool) : TtlCache α × Nat :=
  let kept := c.entries.filter fun p => keep p.1
  (⟨kept⟩, c.entries.length - kept.length)

/-- Drop the entries stamped `age` milliseconds or more before `now`, fresh or not; answers
how many were dropped. -/
def pruneOlderThan (c : TtlCache α) (now : Instant) (age : Nat) : TtlCache α × Nat :=
  let young (e : Entry α) : Bool := now.since e.stampedAt < age
  let kept := (c.entries.map fun (id, fs) => (id, fs.filter fun p => young p.2)).filter
    fun p => !p.2.isEmpty
  let count (es : List (String × List (Field × Entry α))) : Nat :=
    (es.map fun p => p.2.length).foldr (· + ·) 0
  (⟨kept⟩, count c.entries - count kept)

/-- Number of entries. -/
def size (c : TtlCache α) : Nat := (c.entries.map fun p => p.2.length).foldr (· + ·) 0

/-- No entries. -/
def isEmpty (c : TtlCache α) : Bool := c.size == 0

end TtlCache

end AgentDeck
