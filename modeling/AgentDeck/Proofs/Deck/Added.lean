import Mathlib
import AgentDeck.Proofs.Deck.Foreign
import AgentDeck.Proofs.Engine.Protocol

/-!
A session the engine adds stays in memory.

The engine adds a session when one is created or forked, or when a delete is undone. Outside a
reload the session goes into memory at once; during a reload it is kept aside and taken in when
the reload ends. From then on only a delete handled outside a reload takes it out of memory, as
long as the registry holds it whenever a load reads it: a reload installs what the registry
holds, besides what it kept aside. `Deck.Hosts` is that invariant, and every event keeps it in
which the engine handles no delete of the session. A failed access to the registry does not
break it: a failed store, save or removal leaves the registry as it was, and a failed load keeps
what memory holds.

What breaks it is a removal of the session queued before it was added and run after, as when a
delete is undone before its removal ran: the removal takes the session out of the registry, and
the next reload out of memory. `undone_delete_lost` replays such a run, and
`added_session_stays` assumes that no such removal is queued.
-/

namespace AgentDeck

/-- The answer of a load under the reload `rv` holds `y`, if it read the registry. -/
def Message.HoldsAt (y : String) (rv : Nat) : Message → Prop
  | .reloadLoaded v (.ok snap) => v = rv → y ∈ snap.sessions.map (·.id)
  | _ => True

/-- A save queued under a reload older than `rv`. -/
def Job.Older (rv : Nat) : Job → Prop
  | .save v .. => v < rv
  | _ => True

/-- During a reload every queued save is of an older reload. -/
def Engine.SavesOlder (e : Engine) : Prop :=
  e.reloading = true → ∀ j ∈ e.jobs, j.Older e.reloadVersion

section Messages

variable {y : String} {m : Message} {rv : Nat}

theorem Message.holdsAt_of_lt (h : ∀ v, m.loadVersion? = some v → v < rv) : m.HoldsAt y rv := by
  cases m <;> simp only [Message.HoldsAt]
  case reloadLoaded v r =>
    cases r <;> simp only
    intro hv
    have hlt := h v rfl
    omega

theorem Message.refused_of_mem_deletes (h : y ∈ m.deletes) : m.refusedWhileReloading = true := by
  cases m with
  | lifecycle ev => cases ev <;> simp_all [Message.deletes, Message.refusedWhileReloading]
  | _ => simp [Message.deletes] at h

end Messages

namespace Engine

variable {y : String} {e e' : Engine}

theorem storedBy_of_added {m : Message} {s : Session} (hm : m.added? = some s) :
    e.storedBy m = some s := by
  cases m <;> simp only [Message.added?, reduceCtorEq] at hm
  case lifecycle ev =>
    cases ev <;> simp only [reduceCtorEq, Option.some.injEq] at hm
    all_goals
      subst hm
      rfl

/-- A created or forked session is added under some animation. -/
theorem react_of_added {m : Message} {s : Session} (hm : m.added? = some s)
    (stored : Except Error Unit) : ∃ anim, e.react m stored = e.addSession s anim stored := by
  cases m <;> simp only [Message.added?, reduceCtorEq] at hm
  case lifecycle ev =>
    cases ev <;> simp only [reduceCtorEq, Option.some.injEq] at hm
    all_goals
      subst hm
      exact ⟨_, rfl⟩

/-- Handlers other than the answer of a load keep what is kept aside. -/
theorem mem_forceSaved_react {m : Message} (stored : Except Error Unit)
    (hl : ∀ v r, m ≠ .reloadLoaded v r) (hy : y ∈ e.forceSaved.map (·.id)) :
    y ∈ (e.react m stored).forceSaved.map (·.id) := by
  cases hm : m.touchesBookkeeping
  · rw [(quiet_react e stored hm).forceSaved]
    exact hy
  cases m <;> simp only [Message.touchesBookkeeping, Bool.false_eq_true] at hm
  case storageChanged =>
    show y ∈ e.startReload.forceSaved.map (·.id)
    rw [startReload_eq]
    exact hy
  case lifecycle ev =>
    cases ev with
    | created s =>
      show y ∈ (e.addSession s .launching stored).forceSaved.map (·.id)
      rw [addSession_forceSaved]
      split <;> simp [hy]
    | forked s =>
      show y ∈ (e.addSession s .forking stored).forceSaved.map (·.id)
      rw [addSession_forceSaved]
      split <;> simp [hy]
    | deleted id kill =>
      show y ∈ (e.deleteSessions [id] kill).forceSaved.map (·.id)
      rw [deleteSessions_forceSaved]
      exact hy
    | bulkDeleted ids kill =>
      show y ∈ (e.deleteSessions ids kill).forceSaved.map (·.id)
      rw [deleteSessions_forceSaved]
      exact hy
    | restored =>
      rcases react_restored e stored with ⟨s, -, he⟩ | ⟨-, he⟩
      · rw [he, restoreSession_forceSaved]
        exact hy
      · rw [he]
        exact hy
  case reloadLoaded v r => exact absurd rfl (hl v r)
  case deletesPersisted ids r =>
    show y ∈ (e.onDeletesPersisted ids r).forceSaved.map (·.id)
    rw [onDeletesPersisted_forceSaved]
    exact hy

theorem mem_ids_finishReload_current {v : Nat} (hv : v = e.reloadVersion)
    (hr : e.reloading = true) (hg : ∀ b, (y, b) ∉ e.pendingDeletes) {r : Except Error Snapshot}
    (hheld : y ∈ e.sessions.map (·.id) ∨ y ∈ e.forceSaved.map (·.id))
    (hread : y ∉ e.forceSaved.map (·.id) → ∀ snap, r = .ok snap → y ∈ snap.sessions.map (·.id)) :
    y ∈ (e.finishReload v r).sessions.map (·.id) := by
  cases r with
  | error err => exact (mem_ids_finishReload_error hv hr err y).mpr hheld
  | ok snap =>
    rw [mem_ids_finishReload_ok hv hr snap y]
    by_cases hf : y ∈ e.forceSaved.map (·.id)
    · exact .inr hf
    · refine .inl ⟨hread hf snap rfl, Bool.eq_false_iff.mpr fun hlk => ?_⟩
      obtain ⟨b, hb⟩ := (lookup_isSome_iff _ y).mp hlk
      exact hg b hb

/-! ### Save numbers -/

theorem lt_saveSeq_scheduleSave (hq : e.saveSeq ≤ e'.saveSeq) (hr : e'.reloading = false) :
    e.saveSeq < e'.scheduleSave.saveSeq := by
  rw [scheduleSave_saveSeq hr]
  exact Nat.lt_succ_of_le hq

theorem saveSeq_lt_addSession (s : Session) (anim : Animation) (stored : Except Error Unit)
    (h : e.reloading = false) : e.saveSeq < (e.addSession s anim stored).saveSeq := by
  rw [addSession_of_idle s anim stored h]
  dsimp only
  have hq₀ := quiet_noteStored e s stored
  have hf := frame_insertSession (e.noteStored s stored) s
  generalize (e.noteStored s stored).insertSession s = e₁ at hf ⊢
  have hq₁ := (quiet_animations e₁ (e₁.animations.start anim s.id e₁.clock)).trans
    (quiet_selectSession _ s.id)
  generalize (({ e₁ with animations := e₁.animations.start anim s.id e₁.clock }).selectSession
    s.id).1 = e₂ at hq₁ ⊢
  refine lt_saveSeq_scheduleSave ?_ ?_
  · calc e.saveSeq ≤ (e.noteStored s stored).saveSeq := hq₀.saveSeq
      _ = e₁.saveSeq := hf.saveSeq.symm
      _ ≤ e₂.saveSeq := hq₁.saveSeq
  · rw [hq₁.reloading, hf.reloading, hq₀.reloading, h]

theorem saveSeq_lt_restoreSession (s : Session) (stored : Except Error Unit)
    (h : e.reloading = false) : e.saveSeq < (e.restoreSession s stored).saveSeq := by
  rw [restoreSession_eq]
  dsimp only
  have hq₀ := quiet_noteStored e s stored
  generalize e.noteStored s stored = e₀ at hq₀ ⊢
  have hf := frame_insertSession
    { e₀ with undo := e₀.undo.dropLast, pendingDeletes := dropKey e₀.pendingDeletes s.id,
              tasks := orphanTasks e₀.tasks s.id false } s
  generalize
    ({ e₀ with undo := e₀.undo.dropLast, pendingDeletes := dropKey e₀.pendingDeletes s.id,
               tasks := orphanTasks e₀.tasks s.id false }).insertSession s = e₁ at hf ⊢
  have hq₁ := ((quiet_animations e₁ (e₁.animations.start .resuming s.id e₁.clock)).trans
    (quiet_cacheDrop _ s.id .preview)).trans (quiet_selectSession _ s.id)
  generalize (({ e₁ with animations := e₁.animations.start .resuming s.id e₁.clock }.cacheDrop s.id
    .preview).selectSession s.id).1 = e₂ at hq₁ ⊢
  refine Nat.lt_of_lt_of_le (lt_saveSeq_scheduleSave ?_ ?_) (quiet_respawn _ s).saveSeq
  · calc e.saveSeq ≤ e₀.saveSeq := hq₀.saveSeq
      _ = e₁.saveSeq := hf.saveSeq.symm
      _ ≤ e₂.saveSeq := hq₁.saveSeq
  · rw [hq₁.reloading, hf.reloading]
    exact hq₀.reloading.trans h

/-! ### Saves during a reload -/

namespace SavesOlder

theorem of_idle (h : e.reloading = false) : e.SavesOlder :=
  fun hr => Bool.noConfusion (h.symm.trans hr)

/-- A step that keeps the reload state queues no save during a reload. -/
theorem of_steady (h : e.SavesOlder) (hs : Steady e e') : e'.SavesOlder := by
  intro hr j hj
  obtain ⟨new, hjobs, hq⟩ := hs.jobs
  rw [hjobs] at hj
  rcases List.mem_append.mp hj with hj | hj
  · rw [hs.reloadVersion]
    exact h (hs.reloading.symm.trans hr) j hj
  · have hqj := hq j hj
    cases j <;> simp only [Job.Queued] at hqj <;> simp only [Job.Older]
    case save => exact Bool.noConfusion (hqj.2.2.2.symm.trans hr)

/-- A reload starts after every save queued so far. -/
theorem startReload (hb : ∀ j ∈ e.jobs, j.SavedBefore e) : e.startReload.SavesOlder := by
  intro _ j hj
  rw [startReload_eq] at hj ⊢
  rcases List.mem_append.mp hj with hj | hj
  · have hold := hb j hj
    cases j <;> simp only [Job.SavedBefore] at hold <;> simp only [Job.Older]
    case save => exact Nat.lt_succ_of_le hold.1
  · rw [List.mem_singleton.mp hj]
    trivial

/-- Every input keeps it, when no queued save is ahead of the engine. -/
theorem take (h : e.SavesOlder) (hb : ∀ j ∈ e.jobs, j.SavedBefore e) (i : Input) :
    (e.take i).SavesOlder := by
  cases i with
  | call c clock => exact h.of_steady (quiet_take_call e c clock).steady
  | message m stored clock =>
    by_cases hs : m = .storageChanged
    · subst hs
      exact startReload (e := { e with clock }) hb
    · by_cases hl : ∃ v r, m = .reloadLoaded v r
      · obtain ⟨v, r, rfl⟩ := hl
        by_cases hcur : v = e.reloadVersion ∧ e.reloading = true
        · -- the current answer ends the reload
          exact of_idle (finishReload_current (e := { e with clock }) hcur.1 hcur.2 r).2.1
        · exact h.of_steady (quiet_take_stale e r stored clock hcur).steady
      · exact h.of_steady (steady_take e m stored clock hs fun v r he => hl ⟨v, r, he⟩)

end SavesOlder

end Engine

namespace Deck

variable {y : String} {p : Bool} {d d' : Deck}

theorem savesOlder_step (hs : d.Sound) (h : d.engine.SavesOlder) (ev : Event) :
    (d.step ev).engine.SavesOlder := by
  cases ev with
  | message m fault clock =>
    dsimp only [step]
    split
    · exact h
    · split
      · exact h.take hs.saves _
      · split
        · exact h
        · exact h.take hs.saves _
  | call c clock => exact h.take hs.saves _
  | report i clock =>
    dsimp only [step]
    split
    · exact h.take hs.saves _
    · exact h
  | work i fault =>
    dsimp only [step]
    split
    · split
      · exact h
      · rw [perform_engine]
        exact fun hr j hj => h hr j ((List.eraseIdx_sublist _ i).subset hj)
    · exact h
  | commit fault =>
    dsimp only [step]
    split <;> exact h

theorem savesOlder_run (hs : d.Sound) (h : d.engine.SavesOlder) (evs : List Event) :
    (d.run evs).engine.SavesOlder := by
  induction evs generalizing d with
  | nil => exact h
  | cons ev evs ih => exact ih (sound_step hs ev) (savesOlder_step hs h ev)

/-- In every deck a run reaches, no save queued during a reload is current. -/
theorem Reachable.savesOlder (hd : d.Reachable) : d.engine.SavesOlder := by
  obtain ⟨config, registry, mux, git, now, c, v, evs, rfl⟩ := hd
  obtain ⟨e₁, hq, -, hr, -⟩ :=
    Engine.boot_spec (Engine.new config registry mux git now) (c.snapshot none) v
  -- a fresh engine runs no reload
  exact savesOlder_run (sound_start config registry mux git now c v)
    (Engine.SavesOlder.of_idle (hq.reloading.trans hr)) evs


/-! ### The invariant -/

/-- `y` is hosted: the engine spares it and holds it, or, unless it is `placed`, keeps it aside
for the reload under way; the registry holds it; the save that holds the save lock writes it;
and unless it is kept aside, the answer of the current load holds it if it read the registry. -/
structure Hosts (y : String) (placed : Bool) (d : Deck) : Prop where
  engine : d.engine.Spares y
  held : y ∈ d.engine.sessions.map (·.id) ∨ placed = false ∧ y ∈ d.engine.forceSaved.map (·.id)
  registry : y ∈ d.registry.sessions.map (·.id)
  writing : ∀ w ∈ d.writing, y ∈ w.1.map (·.id)
  answers : y ∉ d.engine.forceSaved.map (·.id) → ∀ m ∈ d.inbox, m.HoldsAt y d.engine.reloadVersion

theorem Hosts.place (h : d.Hosts y p) (hy : y ∈ d.engine.sessions.map (·.id)) : d.Hosts y true :=
  { h with held := .inl hy }

namespace Hosts

/-- A step that keeps `y` spared, in memory and aside, does not move the reload version back,
adds no report and no write, and leaves `y` in the registry keeps `y` hosted. -/
theorem of_engine (hs : d.Sound) (h : d.Hosts y p) (he : d'.engine.Spares y)
    (hids : y ∈ d.engine.sessions.map (·.id) → y ∈ d'.engine.sessions.map (·.id))
    (hf : y ∈ d.engine.forceSaved.map (·.id) → y ∈ d'.engine.forceSaved.map (·.id))
    (hv : d.engine.reloadVersion ≤ d'.engine.reloadVersion) (hi : d'.inbox.Sublist d.inbox)
    (hw : d'.writing = d.writing) (hr : y ∈ d'.registry.sessions.map (·.id)) : d'.Hosts y p :=
  ⟨he, h.held.imp hids (And.imp_right hf), hr, hw ▸ h.writing, fun hy m hm =>
    hs.inbox_of_le (P := fun rv m => m.HoldsAt y rv) (fun _ _ => Message.holdsAt_of_lt)
      (h.answers (mt hf hy)) hv m (hi.subset hm)⟩

theorem of_quiet (hs : d.Sound) (h : d.Hosts y p) (hq : Engine.Quiet d.engine d'.engine)
    (hi : d'.inbox.Sublist d.inbox) (hw : d'.writing = d.writing)
    (hr : y ∈ d'.registry.sessions.map (·.id)) : d'.Hosts y p :=
  h.of_engine hs (h.engine.of_quiet hq) (fun hy => hq.ids ▸ hy) (fun hy => hq.forceSaved ▸ hy)
    (Nat.le_of_eq hq.reloadVersion.symm) hi hw hr

/-- Handling a message that answers no load keeps `y` hosted, unless it asks to delete `y`
outside a reload. -/
theorem take (hs : d.Sound) (h : d.Hosts y p) {m : Message} {stored : Except Error Unit}
    {clock : Nat} (hdel : y ∉ m.deletes ∨ d.engine.reloading = true)
    (hl : ∀ v r, m ≠ .reloadLoaded v r) (he : d'.engine = d.engine.take (.message m stored clock))
    (hi : d'.inbox.Sublist d.inbox) (hw : d'.writing = d.writing)
    (hr : y ∈ d'.registry.sessions.map (·.id)) : d'.Hosts y p := by
  by_cases hy : y ∈ m.deletes
  · -- a reload runs, and refuses the delete
    have hrl := hdel.resolve_left (not_not_intro hy)
    rw [(Engine.take_refused hrl (Message.refused_of_mem_deletes hy) stored clock).2] at he
    exact h.of_quiet hs (he ▸ Engine.quiet_clock d.engine clock) hi hw hr
  · refine h.of_engine hs ?_ ?_ ?_ ?_ hi hw hr <;> rw [he]
    · exact h.engine.take stored clock hy hl
    · exact Engine.mem_ids_react (e := { d.engine with clock }) stored hy hl
    · exact Engine.mem_forceSaved_react (e := { d.engine with clock }) stored hl
    · exact Engine.reloadVersion_react (e := { d.engine with clock }) m stored hl

/-- The answer of the current load ends the reload with `y` in memory; every other waiting
answer is of an older load. -/
theorem finishReload (hs : d.Sound) (h : d.Hosts y p) {i clock : Nat}
    {r : Except Error Snapshot} (hm : d.inbox[i]? = some (.reloadLoaded d.engine.reloadVersion r))
    (hr : d.engine.reloading = true) :
    ({ d with inbox := d.inbox.eraseIdx i,
              engine := d.engine.take
                (.message (.reloadLoaded d.engine.reloadVersion r) (.ok ()) clock) }).Hosts y p := by
  have hq := (Engine.finishReload_current (e := { d.engine with clock }) rfl hr r).1
  have hy : y ∈ (({ d.engine with clock } : Engine).finishReload d.engine.reloadVersion
      r).sessions.map (·.id) := by
    refine Engine.mem_ids_finishReload_current (e := { d.engine with clock }) rfl hr
      h.engine.unguarded (h.held.imp id And.right) ?_
    rintro hf snap rfl
    exact h.answers hf _ (List.mem_of_getElem? hm) rfl
  refine ⟨(h.engine.of_quiet (Engine.quiet_clock d.engine clock)).of_finishReload rfl hr hy,
    .inl hy, h.registry, h.writing, fun _ m hm' => ?_⟩
  show m.HoldsAt y
    (({ d.engine with clock } : Engine).finishReload d.engine.reloadVersion r).reloadVersion
  rw [hq.reloadVersion]
  exact Message.holdsAt_of_lt (hs.lt_of_current hm m hm')

theorem dropJob (h : d.Hosts y p) (i : Nat) : (d.dropJob i).Hosts y p :=
  ⟨h.engine.eraseIdx i, h.held, h.registry, h.writing, h.answers⟩

/-- A job that takes the save lock only when it is free, and is neither a current save lacking
`y` nor a removal of `y`, keeps `y` hosted, whether its access to the registry fails or not. -/
theorem perform (h : d.Hosts y p) {j : Job} (hj : j.Carries y d.engine)
    (hrem : j.removes y = false) (hlock : j.takesSaveLock = true → d.writing = none)
    (fault : Option Error) : (d.perform j fault).Hosts y p := by
  cases j with
  | save v q sessions tree tasks =>
    dsimp only [Deck.perform]
    split
    · next hcur =>
      refine ⟨h.engine, h.held, h.registry, fun w hw => ?_, h.answers⟩
      obtain rfl : (sessions, tree, tasks) = w := Option.mem_some_iff.mp hw
      exact hj.mem_of_current hcur
    · exact h
  | load v =>
    -- a load that goes through reads the registry as it is now, which holds `y`
    refine ⟨h.engine, h.held, h.registry, h.writing, fun hf m hm => ?_⟩
    rcases List.mem_append.mp hm with hm | hm
    · exact h.answers hf m hm
    · rw [List.mem_singleton.mp hm]
      cases fault
      · exact fun _ => h.registry
      · trivial
  | removeSessions ids =>
    have hy : y ∉ ids := fun hin => by simp [Job.removes, hin] at hrem
    refine ⟨h.engine, h.held, Contents.mem_ids_unless h.registry
      ((Contents.mem_ids_dropSessions ids).mpr ⟨h.registry, hy⟩), h.writing, fun hf m hm => ?_⟩
    rcases List.mem_append.mp hm with hm | hm
    · exact h.answers hf m hm
    · rw [List.mem_singleton.mp hm]
      trivial
  | _ => exact h

/-- The save holding the lock writes `y`, or fails and leaves the registry as it was. -/
theorem commit (h : d.Hosts y p) (fault : Option Error) : (d.step (.commit fault)).Hosts y p := by
  dsimp only [step]
  split
  · next _ sessions tree tasks hw =>
    refine ⟨h.engine, h.held, Contents.mem_ids_unless h.registry (h.writing _ hw),
      fun w hw' => absurd hw' (by simp), fun hf m hm => ?_⟩
    rcases List.mem_append.mp hm with hm | hm
    · exact h.answers hf m hm
    · -- a failed save reports only that it failed
      cases fault <;> simp at hm
      rw [hm]
      trivial
  · exact h

end Hosts

/-! ### Runs -/

/-- The event has the engine handle a delete of `y`: it asks for one while no reload runs. -/
def handlesDelete (y : String) (d : Deck) (ev : Event) : Bool :=
  ev.deletes.contains y && !d.engine.reloading

/-- The run has the engine handle a delete of `y` at some point. -/
def deletesAlong (y : String) : Deck → List Event → Bool
  | _, [] => false
  | d, ev :: evs => d.handlesDelete y ev || deletesAlong y (d.step ev) evs

theorem deletesAlong_append (d : Deck) (evs more : List Event) :
    d.deletesAlong y (evs ++ more) = (d.deletesAlong y evs || (d.run evs).deletesAlong y more) := by
  induction evs generalizing d with
  | nil => simp [deletesAlong]
  | cons ev evs ih => simp [deletesAlong, ih, Bool.or_assoc]

theorem hosts_step (hs : d.Sound) (h : d.Hosts y p) {ev : Event}
    (hev : d.handlesDelete y ev = false) : (d.step ev).Hosts y p := by
  cases ev with
  | message m fault clock =>
    have hdel : y ∉ m.deletes ∨ d.engine.reloading = true := by
      by_cases hy : y ∈ m.deletes
      · simpa [handlesDelete, Event.deletes, hy] using hev
      · exact .inl hy
    dsimp only [step]
    split
    · exact h
    · next hm =>
      have hl := Message.ne_reloadLoaded_of_outside (eq_false_of_ne_true hm)
      split
      · exact h.take hs hdel hl rfl (List.Sublist.refl _) rfl h.registry
      · next s _ =>
        split
        · exact h
        · -- the session stored, if it is, keeps `y` beside it
          exact h.take hs hdel hl rfl (List.Sublist.refl _) rfl (Contents.mem_ids_unless
            h.registry ((Contents.mem_ids_putSession s).mpr (.inl h.registry)))
  | call c clock =>
    exact h.of_quiet hs (Engine.quiet_take_call d.engine c clock) (List.Sublist.refl _) rfl
      h.registry
  | report i clock =>
    dsimp only [step]
    split
    · next m hm =>
      have hsub := List.eraseIdx_sublist d.inbox i
      by_cases hl : ∃ v r, m = .reloadLoaded v r
      · obtain ⟨v, r, rfl⟩ := hl
        by_cases hcur : v = d.engine.reloadVersion ∧ d.engine.reloading = true
        · obtain ⟨rfl, hr⟩ := hcur
          exact h.finishReload hs hm hr
        · exact h.of_quiet hs (Engine.quiet_take_stale d.engine r (.ok ()) clock hcur) hsub rfl
            h.registry
      · -- the other reports ask to delete nothing
        have hdel : y ∉ m.deletes := by
          rw [Message.deletes_of_fromRegistry (hs.reports m (List.mem_of_getElem? hm))]
          exact List.not_mem_nil
        exact h.take hs (.inl hdel) (fun v r he => hl ⟨v, r, he⟩) rfl hsub rfl h.registry
    · exact h
  | work i fault =>
    dsimp only [step]
    split
    · next j hj =>
      have hmem := List.mem_of_getElem? hj
      split
      · exact h
      · next hfree =>
        refine (h.dropJob i).perform ((h.engine.saves j hmem).mono (Nat.le_refl _)
          (Nat.le_refl _)) (h.engine.removals j hmem) (fun hlock => ?_) fault
        show d.writing = none
        simpa [hlock] using hfree
    · exact h
  | commit fault => exact h.commit fault

/-- Every run in which the engine handles no delete of `y` keeps `y` hosted. -/
theorem hosts_run (hs : d.Sound) (h : d.Hosts y p) {evs : List Event}
    (hev : d.deletesAlong y evs = false) : (d.run evs).Hosts y p := by
  induction evs generalizing d with
  | nil => exact h
  | cons ev evs ih =>
    simp only [deletesAlong, Bool.or_eq_false_iff] at hev
    exact ih (sound_step hs ev) (hosts_step hs h hev.1) hev.2


/-! ### Adding a session -/

theorem Job.carries_of_newer {j : Job} {e e' : Engine} (hb : j.SavedBefore e)
    (hlt : e.saveSeq < e'.saveSeq) : j.Carries y e' := by
  cases j <;> simp only [Job.SavedBefore] at hb <;> simp only [Job.Carries]
  case save => exact fun _ => .inr (Nat.lt_of_le_of_lt hb.2 hlt)

theorem Job.carries_of_older {j : Job} {e : Engine} (ho : j.Older e.reloadVersion) :
    j.Carries y e := by
  cases j <;> simp only [Job.Older] at ho <;> simp only [Job.Carries]
  case save => exact fun _ => .inl ho

/-- The event adds the session `y` to the engine and stores it without a failure: a session is
created or forked while no delete of its id is guarded, or the latest delete, of `y`, is undone.
A store waits for the save lock, so no save holds it. -/
inductive Adds (y : String) (d : Deck) : Event → Prop
  | added {m : Message} {s : Session} (clock : Nat) (hm : m.added? = some s) (hid : s.id = y)
      (hg : ∀ b, (y, b) ∉ d.engine.pendingDeletes) (hw : d.writing = none) :
      Adds y d (.message m none clock)
  | restored {s : Session} (clock : Nat) (hu : d.engine.undoTarget? = some s) (hid : s.id = y)
      (hw : d.writing = none) : Adds y d (.message (.lifecycle .restored) none clock)

theorem step_stores {m : Message} {s : Session} (hm : d.engine.storedBy m = some s)
    (hw : d.writing = none) (fault : Option Error) (clock : Nat) :
    d.step (.message m fault clock) =
      { d with engine := d.engine.take (.message m (outcome fault) clock),
               registry := d.registry.unless fault (·.putSession s) } := by
  have hr : m.fromRegistry = false := by
    cases h : m.fromRegistry
    · rfl
    · rw [Engine.storedBy_of_fromRegistry d.engine h] at hm
      cases hm
  simp only [step, hr, hm, hw, Bool.false_eq_true, ↓reduceIte, Option.isSome_none]

theorem Hosts.of_store (hs : d.Sound) {s : Session} {e' : Engine} (he : e'.Spares s.id)
    (hv : e'.reloadVersion = d.engine.reloadVersion)
    (hheld : d.engine.reloading = false ∧ s.id ∈ e'.sessions.map (·.id) ∨
      s.id ∈ e'.forceSaved.map (·.id))
    (hw : d.writing = none) :
    ({ d with engine := e', registry := d.registry.putSession s }).Hosts s.id false := by
  refine ⟨he, hheld.imp And.right (⟨rfl, ·⟩), (Contents.mem_ids_putSession s).mpr (.inr rfl),
    fun w hw' => by simp [hw] at hw', fun hf m hm => ?_⟩
  -- outside a reload every waiting answer is of an older load
  have hr : d.engine.reloading = false := (hheld.resolve_right hf).1
  show m.HoldsAt s.id e'.reloadVersion
  rw [hv]
  exact Message.holdsAt_of_lt (hs.lt_of_idle hr m hm)

theorem hosts_adds (hs : d.Sound) (ho : d.engine.SavesOlder) {ev : Event} (ha : d.Adds y ev)
    (hq : ∀ j ∈ d.engine.jobs, j.removes y = false) : (d.step ev).Hosts y false := by
  cases ha with
  | @added m s clock hm hid hg hw =>
    subst hid
    obtain ⟨anim, he⟩ := Engine.react_of_added (e := { d.engine with clock }) hm (.ok ())
    have heq : d.engine.take (.message m (outcome none) clock) =
        ({ d.engine with clock } : Engine).addSession s anim (.ok ()) := he
    have hst := Engine.steady_addSession (e := { d.engine with clock }) s anim (.ok ())
    have hheld : (({ d.engine with clock } : Engine).addSession s anim (.ok ())).reloading = false →
        s.id ∈ (({ d.engine with clock } : Engine).addSession s anim (.ok ())).sessions.map
          (·.id) :=
      fun hr => (Engine.mem_ids_addSession s anim _ s.id).mpr
        (.inr ⟨hst.reloading.symm.trans hr, rfl⟩)
    rw [step_stores (Engine.storedBy_of_added hm) hw, heq, Contents.unless_none]
    refine Hosts.of_store hs ⟨hst.toQueues.undeleted_of_removals hq fun b hb => hg b ?_, hheld,
      hst.toQueues.carries_of hheld fun j hj => ?_⟩ hst.reloadVersion ?_ hw
    · rwa [Engine.addSession_pendingDeletes] at hb
    · -- a save queued before is overtaken by the one the engine queues now, or by the reload
      cases hr : d.engine.reloading
      · exact Job.carries_of_newer (hs.saves j hj)
          (Engine.saveSeq_lt_addSession (e := { d.engine with clock }) s anim _ hr)
      · exact Job.carries_of_older (hst.reloadVersion ▸ ho hr j hj)
    · cases hr : d.engine.reloading
      · exact .inl ⟨rfl, (Engine.mem_ids_addSession s anim _ s.id).mpr (.inr ⟨hr, rfl⟩)⟩
      · refine .inr ?_
        rw [Engine.addSession_forceSaved, if_pos hr]
        simp
  | @restored s clock hu hid hw =>
    subst hid
    have hr : d.engine.reloading = false := by
      cases h : d.engine.reloading
      · rfl
      · simp [Engine.undoTarget?, h] at hu
    have he : d.engine.take (.message (.lifecycle .restored) (outcome none) clock) =
        ({ d.engine with clock } : Engine).restoreSession s (.ok ()) := by
      rcases Engine.react_restored { d.engine with clock } (.ok ()) with ⟨s', hs', he⟩ | ⟨hn, -⟩
      · obtain rfl : s' = s := Option.some.inj (hs'.symm.trans hu)
        exact he
      · exact absurd (hn.symm.trans hu) (by simp)
    have hst := Engine.steady_restoreSession (e := { d.engine with clock }) s (.ok ())
    have hin : s.id ∈ (({ d.engine with clock } : Engine).restoreSession s (.ok ())).sessions.map
        (·.id) := (Engine.mem_ids_restoreSession s _ s.id).mpr (.inr rfl)
    rw [step_stores (m := .lifecycle .restored) hu hw, he, Contents.unless_none]
    refine Hosts.of_store hs ⟨hst.toQueues.undeleted_of_removals hq fun b hb => ?_,
      fun _ => hin, hst.toQueues.carries_of (fun _ => hin) fun j hj => ?_⟩ hst.reloadVersion
      (.inl ⟨hr, hin⟩) hw
    · -- undoing the delete drops its guard
      exact ((Engine.mem_pendingDeletes_restoreSession s _ _).mp hb).2 rfl
    · exact Job.carries_of_newer (hs.saves j hj)
        (Engine.saveSeq_lt_restoreSession (e := { d.engine with clock }) s _ hr)


/-- A session the engine adds stays in memory. Let an event add `y`, storing it, while no
removal of `y` is queued, and let the engine handle no delete of `y` afterwards, whatever else
fails. Then whenever no reload runs `y` is in memory, and once it is in memory it stays. -/
theorem added_session_stays (hd : d.Reachable) {ev : Event} (ha : d.Adds y ev)
    (hq : ∀ j ∈ d.engine.jobs, j.removes y = false) (evs more : List Event)
    (hdel : (d.step ev).deletesAlong y (evs ++ more) = false) :
    (((d.step ev).run evs).engine.reloading = false →
      y ∈ ((d.step ev).run evs).engine.sessions.map (·.id)) ∧
    (y ∈ ((d.step ev).run evs).engine.sessions.map (·.id) →
      y ∈ (((d.step ev).run evs).run more).engine.sessions.map (·.id)) := by
  have hs := hd.sound
  rw [deletesAlong_append, Bool.or_eq_false_iff] at hdel
  have h := hosts_run (sound_step hs ev) (hosts_adds hs hd.savesOlder ha hq) hdel.1
  refine ⟨h.engine.held, fun hy => ?_⟩
  -- placed, it is in memory from then on
  have hp := hosts_run (sound_run (sound_step hs ev) evs) (h.place hy) hdel.2
  exact hp.held.resolve_right fun hf => Bool.noConfusion hf.1


/-- The engine creates `s` on a registry holding `k`; a reload reads it back, and a later reload
fails to read the registry: `s` stays in memory throughout. -/
theorem created_session_stays :
    let d := start (Engine.new {} ⟨"/r/sessions.json", "test"⟩ Mux.memory GitLookup.inert 0)
      soloContents {}
    let d₁ := (d.step (.message (.lifecycle (.created createdSession)) none 0)).run
      [.message .storageChanged none 0, .work 3 none, .report 0 0]
    (d₁.engine.reloading = false → "s" ∈ d₁.engine.sessions.map (·.id)) ∧
    ("s" ∈ d₁.engine.sessions.map (·.id) →
      "s" ∈ (d₁.run [.message .storageChanged none 0, .work 4 (some (.io IoFault.noEntry)),
        .report 0 0]).engine.sessions.map (·.id)) := by
  intro d d₁
  have hpd : d.engine.pendingDeletes = [] := by cbv
  exact added_session_stays (d := d) (y := "s")
    ⟨{}, ⟨"/r/sessions.json", "test"⟩, Mux.memory, GitLookup.inert, 0, _, {}, [], rfl⟩
    (.added (s := createdSession) 0 rfl rfl (fun b hb => absurd (hpd ▸ hb) List.not_mem_nil) rfl)
    (fun j hj => by
      -- the only job is the fetch of the preview of `k`
      cbv at hj
      obtain _ | ⟨_, ⟨⟩⟩ := hj
      rfl) _ _ (by cbv)

/-- Without the proviso the session goes: `x` is deleted and the delete undone before its
removal ran. The removal then takes `x` out of the registry, and the next reload out of memory,
though no delete of `x` is handled after the undo and no access to the registry fails. -/
theorem undone_delete_lost :
    ¬ ∀ (d : Deck) (y : String) (ev : Event) (evs : List Event), d.Reachable → d.Adds y ev →
      (d.step ev).deletesAlong y evs = false →
        y ∈ ((d.step ev).run evs).engine.sessions.map (·.id) := by
  intro hall
  have hkept := hall (pairDeck.run [.message (.lifecycle (.deleted "x" false)) none 0]) "x"
    (.message (.lifecycle .restored) none 0)
    [.work 1 none, .message .storageChanged none 0, .work 5 none, .report 1 0]
    ⟨{}, ⟨"/r/sessions.json", "test"⟩, Mux.memory, GitLookup.inert, 0, _, {}, _, rfl⟩
    (.restored
      (s := { id := "x", title := "victim", projectPath := "/p/x", createdAt := World.epoch })
      0 (by cbv) rfl (by cbv)) (by cbv)
  -- the reload reads the registry after the late removal
  exact absurd hkept (by cbv; show "x" ∉ ["k"]; simp)

end Deck

end AgentDeck
