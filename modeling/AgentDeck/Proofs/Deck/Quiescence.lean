import Mathlib
import AgentDeck.Proofs.Deck.Deletion

/-!
When nothing is left to happen: the registry against the engine.

A deck is quiescent when no reload runs, no job is queued, no save holds the save lock and no
report waits. The registry and the engine then ought to agree (`Deck.Agrees`): under every id the
same session, its live status apart, and the same tasks. A save checks that it is still current
when it takes the lock and writes later, and only its write lets go of the lock: whatever happens
in between, a reload started meanwhile included, the held save writes what it was given
(`held_save_lands`). A reload whose load reads the registry in that window takes in what the
save is about to replace, and nothing stores the engine's state again, so a run with no failed
access ends quiescent with the two apart (`stale_read_outlives_save`).
-/

namespace AgentDeck

namespace Deck

/-- The registry and the engine agree: under every id they hold the same session but for its
status, which is live state, and they hold the same tasks. -/
def Agrees (d : Deck) : Prop :=
  (∀ id, (d.registry.sessions.find? (·.id == id)).map (fun s => { s with status := .idle }) =
    (d.engine.sessions.find? (·.id == id)).map (fun s => { s with status := .idle })) ∧
  d.registry.tasks = d.engine.tasks

variable {d : Deck} {w : List Session × GroupTree × List Task}

theorem writing_step (hw : d.writing = some w) {ev : Event} (hc : ∀ f, ev ≠ .commit f) :
    (d.step ev).writing = some w := by
  cases ev with
  | message m fault clock =>
    simp only [step]
    split
    · exact hw
    · split
      · exact hw
      · -- a store waits for the lock
        rw [if_pos (by simp [hw])]
        exact hw
  | call c clock => exact hw
  | report i clock =>
    simp only [step]
    split <;> exact hw
  | work i fault =>
    simp only [step]
    split
    · next j _ =>
      -- a job that needs the lock waits; any other does its work beside it
      by_cases hl : j.takesSaveLock = true
      · rw [if_pos (by simp [hl, hw])]
        exact hw
      · rw [if_neg (by simp [hl])]
        cases j <;> simp_all [perform, dropJob, Job.takesSaveLock]
    · exact hw
  | commit f => exact absurd rfl (hc f)

theorem writing_run (hw : d.writing = some w) {evs : List Event}
    (hc : ∀ ev ∈ evs, ∀ f, ev ≠ .commit f) : (d.run evs).writing = some w := by
  induction evs generalizing d with
  | nil => exact hw
  | cons ev evs ih =>
    rw [run_cons]
    exact ih (writing_step hw (hc ev List.mem_cons_self))
      fun e he => hc e (List.mem_cons_of_mem _ he)

/-- **A held save lands.** A save that took the lock writes the sessions, groups and tasks it was
given at the next commit, whatever happened after it took the lock: the check that it is current
is not made again, so a reload begun in between does not stop it. -/
theorem held_save_lands {ss : List Session} {tree : GroupTree} {tasks : List Task}
    (hw : d.writing = some (ss, tree, tasks)) {evs : List Event}
    (hc : ∀ ev ∈ evs, ∀ f, ev ≠ .commit f) :
    ((d.run evs).step (.commit none)).registry =
      .ofSave ss tree tasks (d.run evs).registry.updatedAt := by
  simp [step, writing_run hw hc, Contents.unless]

/-- A registry holding `k` and `x`, titled `keep` and `old`. -/
def renameDeck : Deck :=
  start (Engine.new {} ⟨"/r/sessions.json", "test"⟩ Mux.memory GitLookup.inert 0)
    { sessions := [{ id := "k", title := "keep", projectPath := "/p/k", createdAt := World.epoch },
        { id := "x", title := "old", projectPath := "/p/x", createdAt := World.epoch }],
      updatedAt := World.epoch } {}

/-- `x` is renamed `new`, and the save of the new title takes the lock; the registry changes
underneath and the reload's load reads it before the save writes; the save writes, the load's
answer is taken in, and the preview fetch queued at the start runs. -/
def staleRename : List Event :=
  [.call (.rename "x" "new") 0, .work 1 none, .message .storageChanged none 0, .work 1 none,
    .commit none, .report 0 0, .work 0 none]

theorem staleRename_quiescent : (renameDeck.run staleRename).Quiescent := by
  unfold Quiescent
  cbv

/-- A run in which no registry access fails ends with nothing left to happen, the registry
holding `x` under its new title and the engine under its old one. -/
theorem stale_read_outlives_save :
    ¬ ∀ evs : List Event, evs.all (·.faultless) = true → (renameDeck.run evs).Quiescent →
      (renameDeck.run evs).Agrees := by
  intro h
  have hx := congrArg (Option.map (·.title))
    ((h staleRename rfl staleRename_quiescent).1 "x")
  have hreg : ((renameDeck.run staleRename).registry.sessions.find? (·.id == "x")).map
      (·.title) = some "new" := by cbv
  have hmem : ((renameDeck.run staleRename).engine.sessions.find? (·.id == "x")).map
      (·.title) = some "old" := by cbv
  simp only [Option.map_map, Function.comp_def] at hx
  rw [hreg, hmem] at hx
  simp at hx

end Deck

end AgentDeck
