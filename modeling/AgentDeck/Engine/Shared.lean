import AgentDeck.Engine.Deck

/-!
A deck whose registry another process writes too.

The command line adds a session by storing it, and removes sessions, each as one read, change and
write of the registry under the registry's lock (`Registry.upsert`, `Registry.remove`). The
engine's watcher then reports that the registry changed. Here that report is taken in at once,
right after the write, before anything else happens to the deck.
-/

namespace AgentDeck

/-- A write of another process to the registry. -/
inductive Foreign where
  /-- Store one session, as adding a session from the command line does. -/
  | upsert (s : Session)
  /-- Remove the sessions with these ids, as removing them from the command line does. -/
  | remove (ids : List String)

/-- The registry's contents after the write. -/
def Foreign.apply : Foreign → Contents → Contents
  | .upsert s, c => c.putSession s
  | .remove ids, c => c.dropSessions ids

/-- One thing that happens to a deck that shares its registry. -/
inductive SharedEvent where
  /-- Something happens to the deck itself. -/
  | deck (ev : Event)
  /-- Another process writes the registry, and the engine takes in the storage change. -/
  | foreign (w : Foreign) (clock : Nat)

namespace Deck

/-- What one event does to a deck that shares its registry. -/
def share (d : Deck) : SharedEvent → Deck
  | .deck ev => d.step ev
  | .foreign w clock =>
    { d with registry := w.apply d.registry }.step (.message .storageChanged none clock)

/-- Another process's write, taken in at once: the engine starts a reload. -/
theorem share_foreign (d : Deck) (w : Foreign) (clock : Nat) :
    d.share (.foreign w clock) =
      { d with registry := w.apply d.registry,
               engine := d.engine.take (.message .storageChanged (.ok ()) clock) } := rfl

/-- What a sequence of events does. -/
def shareRun (d : Deck) (evs : List SharedEvent) : Deck := evs.foldl share d

@[simp] theorem shareRun_nil (d : Deck) : d.shareRun [] = d := rfl

@[simp] theorem shareRun_cons (d : Deck) (ev : SharedEvent) (evs : List SharedEvent) :
    d.shareRun (ev :: evs) = (d.share ev).shareRun evs := rfl

theorem shareRun_append (d : Deck) (u v : List SharedEvent) :
    d.shareRun (u ++ v) = (d.shareRun u).shareRun v := by
  simp [shareRun, List.foldl_append]

end Deck

end AgentDeck
