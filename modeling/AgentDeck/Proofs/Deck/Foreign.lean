import Mathlib
import AgentDeck.Proofs.Deck.Deletion
import AgentDeck.Engine.Shared

/-!
A session that another process stores in the registry stays there.

The engine takes in the storage change right after the other process writes, and starts a reload:
every save queued before is out of date from then on, and the reload reads the registry afresh.
Until the engine is asked to delete a session with the same id, none of its writes drops the
session again. Outside a reload the engine holds it, so each save it queues writes it; only a
delete guards an id and queues its removal; the save that holds the save lock writes it; and the
answer of the current load read it, so the reload takes it in. `Deck.Retains` is that invariant,
and every event keeps it in which no job's access to the registry fails.

The invariant cannot be set up when a save has passed its check before the other process writes:
that save writes afterwards what the engine held before (`foreign_session_overwritten`). Nor does
it survive a reload whose read fails, after which the engine saves what it held before the write
(`foreign_session_dropped`). `added_session_kept` assumes neither.
-/

namespace AgentDeck

/-- A queued removal of `y` from the registry. -/
def Job.removes (y : String) : Job → Bool
  | .removeSessions ids => ids.contains y
  | _ => false

/-- A queued save that lacks `y` is out of date in `e`: a reload started or a later save was
queued since it was. -/
def Job.Carries (y : String) (e : Engine) : Job → Prop
  | .save v q sessions _ _ => y ∉ sessions.map (·.id) → v < e.reloadVersion ∨ q < e.saveSeq
  | _ => True

/-- The answer of a load under the reload `rv`, if this is one, read `y`. -/
def Message.ReadsAt (y : String) (rv : Nat) : Message → Prop
  | .reloadLoaded v r => v = rv → ∃ snap, r = .ok snap ∧ y ∈ snap.sessions.map (·.id)
  | _ => True

/-- The ids the event asks the engine to delete. -/
def Event.deletes : Event → List String
  | .message m _ _ => m.deletes
  | _ => []

/-- The event asks the engine to delete no `y`, and no job's access to the registry fails in
it. -/
def Event.spares (y : String) : Event → Bool
  | .message m _ _ => !m.deletes.contains y
  | .work _ fault => fault.isNone
  | _ => true

/-- The write removes no `y`. -/
def Foreign.spares (y : String) : Foreign → Bool
  | .upsert _ => true
  | .remove ids => !ids.contains y

/-- The ids the event asks the engine to delete. -/
def SharedEvent.deletes : SharedEvent → List String
  | .deck ev => ev.deletes
  | .foreign .. => []

/-- The event does nothing of its own to take `y` out of the registry. -/
def SharedEvent.spares (y : String) : SharedEvent → Bool
  | .deck ev => ev.spares y
  | .foreign w _ => w.spares y

section Basics

variable {y : String} {e e' : Engine} {j : Job} {m : Message}

theorem Job.Carries.mono (h : j.Carries y e) (hv : e.reloadVersion ≤ e'.reloadVersion)
    (hq : e.saveSeq ≤ e'.saveSeq) : j.Carries y e' := by
  cases j <;> simp only [Job.Carries] at h ⊢
  case save => exact fun hy => (h hy).imp (Nat.lt_of_lt_of_le · hv) (Nat.lt_of_lt_of_le · hq)

/-- A save that carries `y` and is still current writes `y`. -/
theorem Job.Carries.mem_of_current {v q : Nat} {sessions : List Session} {tree : GroupTree}
    {tasks : List Task} (h : (Job.save v q sessions tree tasks).Carries y e)
    (hcur : e.saveIsCurrent v q = true) : y ∈ sessions.map (·.id) := by
  by_contra hout
  simp only [Engine.saveIsCurrent, Bool.and_eq_true, beq_iff_eq] at hcur
  rcases h hout with hlt | hlt <;> omega

theorem Message.readsAt_of_lt {rv : Nat} (h : ∀ v, m.loadVersion? = some v → v < rv) :
    m.ReadsAt y rv := by
  cases m <;> simp only [Message.ReadsAt]
  case reloadLoaded v r =>
    intro hv
    have hlt := h v rfl
    omega

theorem Message.deletes_of_fromRegistry (h : m.fromRegistry = true) : m.deletes = [] := by
  cases m <;> simp_all [Message.fromRegistry, Message.deletes]

theorem Foreign.mem_ids_apply {w : Foreign} {c : Contents} (hw : w.spares y = true)
    (hy : y ∈ c.sessions.map (·.id)) : y ∈ (w.apply c).sessions.map (·.id) := by
  cases w with
  | upsert s => exact (Contents.mem_ids_putSession s).mpr (.inl hy)
  | remove ids =>
    refine (Contents.mem_ids_dropSessions ids).mpr ⟨hy, fun hin => ?_⟩
    simp [Foreign.spares, hin] at hw

/-- A change that may fail keeps what both the old and the new contents hold. -/
theorem Contents.mem_ids_unless {c : Contents} {fault : Option Error} {f : Contents → Contents}
    (hc : y ∈ c.sessions.map (·.id)) (hf : y ∈ (f c).sessions.map (·.id)) :
    y ∈ (c.unless fault f).sessions.map (·.id) := by
  unfold Contents.unless
  split
  · exact hf
  · exact hc

end Basics

/-! ### Guards -/

section Tables

variable {α : Type} {v : α} {k : String} {p : String × α}

theorem mem_putKey_inv {tbl : List (String × α)} (hp : p ∈ putKey tbl k v) :
    p ∈ tbl ∨ p.1 = k := by
  unfold putKey at hp
  split at hp
  · obtain ⟨⟨k', w⟩, hq, rfl⟩ := List.mem_map.mp hp
    by_cases hk : k' = k
    · exact .inr (by simp [hk])
    · exact .inl (by simpa [hk] using hq)
  · rcases List.mem_append.mp hp with hp | hp
    · exact .inl hp
    · exact .inr (by rw [List.mem_singleton.mp hp])

theorem mem_foldl_putKey_inv (ids : List String) {tbl : List (String × α)}
    (hp : p ∈ ids.foldl (fun t id => putKey t id v) tbl) : p ∈ tbl ∨ p.1 ∈ ids := by
  induction ids generalizing tbl with
  | nil => exact .inl hp
  | cons id ids ih =>
    rcases ih hp with hp | hp
    · rcases mem_putKey_inv hp with hp | hp
      · exact .inl hp
      · exact .inr (hp ▸ List.mem_cons_self)
    · exact .inr (List.mem_cons_of_mem _ hp)

end Tables

namespace Engine

variable {y : String} {e e' : Engine}

theorem guard_deleteSessions (l : List String) (kill : Bool) {p : String × Bool}
    (hp : p ∈ (e.deleteSessions l kill).pendingDeletes) : p ∈ e.pendingDeletes ∨ p.1 ∈ l := by
  cases h : e.reloading
  · rw [deleteSessions_of_idle l kill h] at hp
    dsimp only at hp
    obtain ⟨rs, hrs, hmem⟩ := removed_foldl_dropFound l (e, [])
    have hframe := frame_foldl_dropFound l (e, [])
    split at hp
    · rw [hframe.pendingDeletes] at hp
      exact .inl hp
    · rw [(quiet_killIf _ _ _).pendingDeletes, (quiet_scheduleSave _).pendingDeletes,
        persistDeletes_pendingDeletes, (quiet_rebuildView _).pendingDeletes,
        hframe.pendingDeletes] at hp
      rcases mem_foldl_putKey_inv _ hp with hp | hp
      · exact .inl hp
      · -- the ids guarded are those of the sessions removed, all asked for
        rw [hrs, List.nil_append] at hp
        exact .inr ((hmem _).mp hp).2
  · rw [deleteSessions_of_reloading l kill h] at hp
    exact .inl hp

theorem guard_settleDelete (e : Engine) (id : String) {p : String × Bool}
    (hp : p ∈ (e.settleDelete id).pendingDeletes) : ∃ b, (p.1, b) ∈ e.pendingDeletes := by
  unfold settleDelete at hp
  split at hp
  · obtain ⟨⟨k, b⟩, hq, rfl⟩ := List.mem_map.mp hp
    -- marking a guard keeps its id
    refine ⟨b, ?_⟩
    by_cases hk : k = id
    · subst hk
      simpa using hq
    · simpa [hk] using hq
  · exact ⟨p.2, ((mem_dropKey _ _).mp hp).1⟩

theorem guard_foldl_settleDelete (ids : List String) (e : Engine) {p : String × Bool}
    (hp : p ∈ (ids.foldl settleDelete e).pendingDeletes) : ∃ b, (p.1, b) ∈ e.pendingDeletes := by
  induction ids generalizing e p with
  | nil => exact ⟨p.2, hp⟩
  | cons id ids ih =>
    obtain ⟨b, hb⟩ := ih (e.settleDelete id) hp
    obtain ⟨b', hb'⟩ := guard_settleDelete e id hb
    exact ⟨b', hb'⟩

theorem guard_onDeletesPersisted (ids : List String) (result : Except Error Unit)
    {p : String × Bool} (hp : p ∈ (e.onDeletesPersisted ids result).pendingDeletes) :
    ∃ b, (p.1, b) ∈ e.pendingDeletes := by
  unfold onDeletesPersisted at hp
  obtain ⟨b, hb⟩ := guard_foldl_settleDelete ids _ hp
  exact ⟨b, (quiet_noteRemoval (e := e) result).pendingDeletes ▸ hb⟩

/-- A handler asked to delete no `y`, and answering no load, keeps `y`. -/
theorem mem_ids_react {m : Message} (stored : Except Error Unit) (hdel : y ∉ m.deletes)
    (hl : ∀ v r, m ≠ .reloadLoaded v r) (hy : y ∈ e.sessions.map (·.id)) :
    y ∈ (e.react m stored).sessions.map (·.id) := by
  cases hm : m.touchesBookkeeping
  · rw [(quiet_react e stored hm).ids]
    exact hy
  cases m <;> simp only [Message.touchesBookkeeping, Bool.false_eq_true] at hm
  case storageChanged => exact hy
  case lifecycle ev =>
    cases ev with
    | created s => exact (mem_ids_addSession s .launching stored y).mpr (.inl hy)
    | forked s => exact (mem_ids_addSession s .forking stored y).mpr (.inl hy)
    | deleted id kill => exact (mem_ids_deleteSessions [id] kill y).mpr ⟨hy, .inr hdel⟩
    | bulkDeleted ids kill => exact (mem_ids_deleteSessions ids kill y).mpr ⟨hy, .inr hdel⟩
    | restored =>
      rcases react_restored e stored with ⟨s, -, he⟩ | ⟨-, he⟩
      · rw [he]
        exact (mem_ids_restoreSession s stored y).mpr (.inl hy)
      · rw [he]
        exact hy
  case reloadLoaded v r => exact absurd rfl (hl v r)
  case deletesPersisted ids r =>
    show y ∈ (e.onDeletesPersisted ids r).sessions.map (·.id)
    rw [onDeletesPersisted_sessions]
    exact hy

/-! ### No delete under way -/

/-- No delete of `y` is under way in `e`: `y` is not guarded as deleted and no queued removal
names it. -/
structure Undeleted (y : String) (e : Engine) : Prop where
  unguarded : ∀ b, (y, b) ∉ e.pendingDeletes
  removals : ∀ j ∈ e.jobs, j.removes y = false

/-- Besides, outside a reload `e` holds `y`, and every queued save that lacks `y` is out of
date. -/
structure Spares (y : String) (e : Engine) : Prop extends Undeleted y e where
  held : e.reloading = false → y ∈ e.sessions.map (·.id)
  saves : ∀ j ∈ e.jobs, j.Carries y e

/-- A step that queues only what `Queues` allows and guards no `y` queues no removal of `y`: it
removes only ids it guards. -/
theorem Queues.undeleted_of_removals (h : Queues e e') (hr : ∀ j ∈ e.jobs, j.removes y = false)
    (hg : ∀ b, (y, b) ∉ e'.pendingDeletes) : e'.Undeleted y := by
  obtain ⟨new, hj, hb⟩ := h.jobs
  refine ⟨hg, fun j hmem => ?_⟩
  rw [hj] at hmem
  rcases List.mem_append.mp hmem with hmem | hmem
  · exact hr j hmem
  · have hq := hb j hmem
    cases j <;> simp only [Job.Queued] at hq <;> simp only [Job.removes]
    case removeSessions ids =>
      refine Bool.eq_false_iff.mpr fun hy => hg false (hq y ?_).2
      simpa using hy

theorem Queues.undeleted (h : Queues e e') (hu : e.Undeleted y)
    (hg : ∀ b, (y, b) ∉ e'.pendingDeletes) : e'.Undeleted y :=
  h.undeleted_of_removals hu.removals hg

/-- Such a step that holds `y` outside a reload queues only saves that write `y`, so the jobs
carry `y` if the old ones still do. -/
theorem Queues.carries_of (h : Queues e e')
    (hheld : e'.reloading = false → y ∈ e'.sessions.map (·.id))
    (hold : ∀ j ∈ e.jobs, j.Carries y e') : ∀ j ∈ e'.jobs, j.Carries y e' := by
  obtain ⟨new, hj, hb⟩ := h.jobs
  intro j hmem
  rw [hj] at hmem
  rcases List.mem_append.mp hmem with hmem | hmem
  · exact hold j hmem
  · have hq := hb j hmem
    cases j <;> simp only [Job.Queued] at hq <;> simp only [Job.Carries]
    case save =>
      -- a save the step queues writes what `e'` holds, and is queued outside a reload
      obtain ⟨-, -, hids, hr⟩ := hq
      exact fun hy => absurd (hids ▸ hheld hr) hy

theorem Queues.carries (h : Queues e e')
    (hheld : e'.reloading = false → y ∈ e'.sessions.map (·.id))
    (hs : ∀ j ∈ e.jobs, j.Carries y e) : ∀ j ∈ e'.jobs, j.Carries y e' :=
  h.carries_of hheld fun j hj => (hs j hj).mono (Nat.le_of_eq h.reloadVersion.symm) h.saveSeq

namespace Undeleted

theorem of_quiet (h : e.Undeleted y) (hq : Quiet e e') : e'.Undeleted y :=
  hq.queues.undeleted h fun b hb => h.unguarded b (hq.pendingDeletes ▸ hb)

theorem eraseIdx (h : e.Undeleted y) (i : Nat) :
    { e with jobs := e.jobs.eraseIdx i }.Undeleted y :=
  ⟨h.unguarded, fun j hj => h.removals j ((List.eraseIdx_sublist _ i).subset hj)⟩

theorem startReload (h : e.Undeleted y) : e.startReload.Undeleted y := by
  rw [startReload_eq]
  refine ⟨h.unguarded, fun j hj => ?_⟩
  rcases List.mem_append.mp hj with hj | hj
  · exact h.removals j hj
  · rw [List.mem_singleton.mp hj]
    rfl

theorem addSession (h : e.Undeleted y) (s : Session) (anim : Animation)
    (stored : Except Error Unit) : (e.addSession s anim stored).Undeleted y :=
  (steady_addSession s anim stored).toQueues.undeleted h fun b hb =>
    h.unguarded b (by rwa [addSession_pendingDeletes] at hb)

theorem deleteSessions (h : e.Undeleted y) (l : List String) (kill : Bool) (hl : y ∉ l) :
    (e.deleteSessions l kill).Undeleted y :=
  (steady_deleteSessions l kill).toQueues.undeleted h fun b hb =>
    (guard_deleteSessions l kill hb).elim (h.unguarded b) hl

theorem restoreSession (h : e.Undeleted y) (s : Session) (stored : Except Error Unit) :
    (e.restoreSession s stored).Undeleted y :=
  (steady_restoreSession s stored).toQueues.undeleted h fun b hb =>
    h.unguarded b ((mem_pendingDeletes_restoreSession s stored _).mp hb).1

theorem onDeletesPersisted (h : e.Undeleted y) (ids : List String) (result : Except Error Unit) :
    (e.onDeletesPersisted ids result).Undeleted y :=
  (steady_onDeletesPersisted ids result).toQueues.undeleted h fun b hb => by
    obtain ⟨b', hb'⟩ := guard_onDeletesPersisted ids result hb
    exact h.unguarded b' hb'

theorem finishReload (h : e.Undeleted y) (v : Nat) (r : Except Error Snapshot) :
    (e.finishReload v r).Undeleted y := by
  by_cases hcur : v = e.reloadVersion ∧ e.reloading = true
  · obtain ⟨hq, -, -, hpd⟩ := finishReload_current hcur.1 hcur.2 r
    exact hq.undeleted h fun b hb => h.unguarded b ((hpd _).mp hb).1
  · rw [finishReload_of_stale r hcur]
    exact h

/-- Handling a message that asks to delete no `y` starts no delete of `y`. -/
theorem react (h : e.Undeleted y) (m : Message) (stored : Except Error Unit)
    (hdel : y ∉ m.deletes) : (e.react m stored).Undeleted y := by
  cases hm : m.touchesBookkeeping
  · exact h.of_quiet (quiet_react e stored hm)
  cases m <;> simp only [Message.touchesBookkeeping, Bool.false_eq_true] at hm
  case storageChanged => exact h.startReload
  case lifecycle ev =>
    cases ev with
    | created s => exact h.addSession s .launching stored
    | forked s => exact h.addSession s .forking stored
    | deleted id kill => exact h.deleteSessions [id] kill hdel
    | bulkDeleted ids kill => exact h.deleteSessions ids kill hdel
    | restored =>
      rcases react_restored e stored with ⟨s, -, he⟩ | ⟨-, he⟩
      · rw [he]
        exact h.restoreSession s stored
      · rw [he]
        exact h
  case reloadLoaded v r => exact h.finishReload v r
  case deletesPersisted ids r => exact h.onDeletesPersisted ids r

theorem take (h : e.Undeleted y) {m : Message} (stored : Except Error Unit) (clock : Nat)
    (hdel : y ∉ m.deletes) : (e.take (.message m stored clock)).Undeleted y :=
  (h.of_quiet (quiet_clock e clock)).react m stored hdel

theorem spares_startReload (h : e.Undeleted y) (hs : ∀ j ∈ e.jobs, j.Carries y e.startReload) :
    e.startReload.Spares y := by
  have hu := h.startReload
  rw [startReload_eq] at hu hs ⊢
  refine { hu with held := fun hr => absurd hr Bool.noConfusion, saves := fun j hj => ?_ }
  rcases List.mem_append.mp hj with hj | hj
  · exact hs j hj
  · rw [List.mem_singleton.mp hj]
    trivial

theorem spares_of_savedBefore (h : e.Undeleted y) (hs : ∀ j ∈ e.jobs, j.SavedBefore e) :
    e.startReload.Spares y := by
  refine h.spares_startReload fun j hj => ?_
  have hold := hs j hj
  cases j <;> simp only [Job.SavedBefore] at hold <;> simp only [Job.Carries]
  case save => exact fun _ => .inl (Nat.lt_succ_of_le hold.1)

end Undeleted

namespace Spares

theorem of_steady (h : e.Spares y) (hs : Steady e e') (hu : e'.Undeleted y)
    (hi : y ∈ e.sessions.map (·.id) → y ∈ e'.sessions.map (·.id)) : e'.Spares y :=
  have hheld : e'.reloading = false → y ∈ e'.sessions.map (·.id) :=
    fun hr => hi (h.held (hs.reloading.symm.trans hr))
  { hu with held := hheld, saves := hs.toQueues.carries hheld h.saves }

theorem of_quiet (h : e.Spares y) (hq : Quiet e e') : e'.Spares y :=
  h.of_steady hq.steady (h.toUndeleted.of_quiet hq) fun hy => by
    rw [hq.ids]
    exact hy

theorem eraseIdx (h : e.Spares y) (i : Nat) : { e with jobs := e.jobs.eraseIdx i }.Spares y :=
  { h.toUndeleted.eraseIdx i with
    held := h.held
    saves := fun j hj =>
      (h.saves j ((List.eraseIdx_sublist _ i).subset hj)).mono (Nat.le_refl _) (Nat.le_refl _) }

theorem startReload (h : e.Spares y) : e.startReload.Spares y :=
  h.toUndeleted.spares_startReload fun j hj => by
    rw [startReload_eq]
    exact (h.saves j hj).mono (Nat.le_succ _) (Nat.le_refl _)

/-- Handling a message that asks to delete no `y` and answers no load keeps `y` spared. -/
theorem react (h : e.Spares y) (m : Message) (stored : Except Error Unit)
    (hdel : y ∉ m.deletes) (hl : ∀ v r, m ≠ .reloadLoaded v r) : (e.react m stored).Spares y := by
  by_cases hs : m = .storageChanged
  · subst hs
    exact h.startReload
  · exact h.of_steady (steady_react e m stored hs hl) (h.toUndeleted.react m stored hdel)
      (mem_ids_react stored hdel hl)

theorem take (h : e.Spares y) {m : Message} (stored : Except Error Unit) (clock : Nat)
    (hdel : y ∉ m.deletes) (hl : ∀ v r, m ≠ .reloadLoaded v r) :
    (e.take (.message m stored clock)).Spares y :=
  (h.of_quiet (quiet_clock e clock)).react m stored hdel hl

/-- A reload that ends holding `y` keeps `y` spared. -/
theorem of_finishReload (h : e.Spares y) {v : Nat} (hv : v = e.reloadVersion)
    (hr : e.reloading = true) {r : Except Error Snapshot}
    (hy : y ∈ (e.finishReload v r).sessions.map (·.id)) : (e.finishReload v r).Spares y :=
  { h.toUndeleted.finishReload v r with
    held := fun _ => hy
    saves := (finishReload_current hv hr r).1.carries (fun _ => hy) h.saves }

/-- The answer of the current load, if it read `y`, ends the reload holding `y`. -/
theorem finishReload (h : e.Spares y) {v : Nat} {snap : Snapshot} (hv : v = e.reloadVersion)
    (hr : e.reloading = true) (hsnap : y ∈ snap.sessions.map (·.id)) :
    (e.finishReload v (.ok snap)).Spares y := by
  -- `y` is not guarded, so the reload takes it in
  refine h.of_finishReload hv hr ?_
  rw [mem_ids_finishReload_ok hv hr snap y]
  refine .inl ⟨hsnap, Bool.eq_false_iff.mpr fun hlk => ?_⟩
  obtain ⟨b, hb⟩ := (lookup_isSome_iff _ y).mp hlk
  exact h.unguarded b hb

end Spares

end Engine

namespace Deck

variable {y : String} {d d' : Deck}

/-- `y` is retained: the engine spares it, the registry holds it, the save that holds the save
lock writes it, and the answer of the current load, if one waits, read it. -/
structure Retains (y : String) (d : Deck) : Prop where
  engine : d.engine.Spares y
  registry : y ∈ d.registry.sessions.map (·.id)
  writing : ∀ w ∈ d.writing, y ∈ w.1.map (·.id)
  answers : ∀ m ∈ d.inbox, m.ReadsAt y d.engine.reloadVersion

/-- A newer reload than every waiting answer finds none of them current: what holds of each
waiting answer at the current version, and of every answer of an older load, holds of each at
every newer version. -/
theorem Sound.inbox_of_le (hs : d.Sound) {P : Nat → Message → Prop}
    (hold : ∀ rv m, (∀ v, m.loadVersion? = some v → v < rv) → P rv m)
    (h : ∀ m ∈ d.inbox, P d.engine.reloadVersion m) {rv : Nat}
    (hv : d.engine.reloadVersion ≤ rv) : ∀ m ∈ d.inbox, P rv m := by
  intro m hm
  rcases Nat.eq_or_lt_of_le hv with rfl | hlt
  · exact h m hm
  · exact hold rv m fun v hv' =>
      Nat.lt_of_le_of_lt (hs.loads.below v (mem_loads_of_inbox hm hv')) hlt

theorem Sound.readsAt_of_le (hs : d.Sound)
    (h : ∀ m ∈ d.inbox, m.ReadsAt y d.engine.reloadVersion) {rv : Nat}
    (hv : d.engine.reloadVersion ≤ rv) : ∀ m ∈ d.inbox, m.ReadsAt y rv :=
  hs.inbox_of_le (P := fun rv m => m.ReadsAt y rv) (fun _ _ => Message.readsAt_of_lt) h hv

/-! ### What each event does -/

/-- A step that keeps `y` spared, does not move the reload version back, adds no report and no
write, and leaves `y` in the registry keeps `y`. -/
theorem Retains.of_engine (hs : d.Sound) (h : d.Retains y) (he : d'.engine.Spares y)
    (hv : d.engine.reloadVersion ≤ d'.engine.reloadVersion) (hi : d'.inbox.Sublist d.inbox)
    (hw : d'.writing = d.writing) (hr : y ∈ d'.registry.sessions.map (·.id)) : d'.Retains y :=
  ⟨he, hr, hw ▸ h.writing, fun m hm => hs.readsAt_of_le h.answers hv m (hi.subset hm)⟩

/-- Handling a message that asks to delete no `y` and answers no load keeps `y`. -/
theorem Retains.take (hs : d.Sound) (h : d.Retains y) {m : Message} {stored : Except Error Unit}
    {clock : Nat} (hdel : y ∉ m.deletes) (hl : ∀ v r, m ≠ .reloadLoaded v r)
    (he : d'.engine = d.engine.take (.message m stored clock)) (hi : d'.inbox.Sublist d.inbox)
    (hw : d'.writing = d.writing) (hr : y ∈ d'.registry.sessions.map (·.id)) : d'.Retains y := by
  refine h.of_engine hs ?_ ?_ hi hw hr
  · rw [he]
    exact h.engine.take stored clock hdel hl
  · rw [he]
    exact Engine.reloadVersion_react (e := { d.engine with clock }) m stored hl

/-- The answer of the current load read `y`, so the reload it ends takes `y` in; every other
waiting answer is of an older load. -/
theorem Retains.finishReload (hs : d.Sound) (h : d.Retains y) {i clock : Nat}
    {r : Except Error Snapshot} (hm : d.inbox[i]? = some (.reloadLoaded d.engine.reloadVersion r))
    (hr : d.engine.reloading = true) :
    ({ d with inbox := d.inbox.eraseIdx i,
              engine := d.engine.take
                (.message (.reloadLoaded d.engine.reloadVersion r) (.ok ()) clock) }).Retains y := by
  obtain ⟨snap, rfl, hsnap⟩ := h.answers _ (List.mem_of_getElem? hm) rfl
  have hq := (Engine.finishReload_current (e := { d.engine with clock }) rfl hr (.ok snap)).1
  refine ⟨(h.engine.of_quiet (Engine.quiet_clock d.engine clock)).finishReload rfl hr hsnap,
    h.registry, h.writing, fun m hm' => ?_⟩
  show m.ReadsAt y
    (({ d.engine with clock } : Engine).finishReload d.engine.reloadVersion (.ok snap)).reloadVersion
  rw [hq.reloadVersion]
  exact Message.readsAt_of_lt (hs.lt_of_current hm m hm')

theorem Retains.dropJob (h : d.Retains y) (i : Nat) : (d.dropJob i).Retains y :=
  ⟨h.engine.eraseIdx i, h.registry, h.writing, h.answers⟩

/-- A job that takes the save lock only when it is free, and is neither a current save lacking
`y` nor a removal of `y`, keeps `y` when its access to the registry does not fail. -/
theorem Retains.perform (h : d.Retains y) {j : Job} (hj : j.Carries y d.engine)
    (hrem : j.removes y = false) (hlock : j.takesSaveLock = true → d.writing = none) :
    (d.perform j none).Retains y := by
  cases j with
  | save v q sessions tree tasks =>
    dsimp only [Deck.perform]
    split
    · next hcur =>
      refine ⟨h.engine, h.registry, fun w hw => ?_, h.answers⟩
      obtain rfl : (sessions, tree, tasks) = w := Option.mem_some_iff.mp hw
      exact hj.mem_of_current hcur
    · exact h
  | load v =>
    -- the answer is read from the registry as it is now, which holds `y`
    refine ⟨h.engine, h.registry, h.writing, fun m hm => ?_⟩
    rcases List.mem_append.mp hm with hm | hm
    · exact h.answers m hm
    · rw [List.mem_singleton.mp hm]
      exact fun _ => ⟨_, rfl, h.registry⟩
  | removeSessions ids =>
    have hy : y ∉ ids := fun hin => by simp [Job.removes, hin] at hrem
    refine ⟨h.engine, (Contents.mem_ids_dropSessions ids).mpr ⟨h.registry, hy⟩, h.writing,
      fun m hm => ?_⟩
    rcases List.mem_append.mp hm with hm | hm
    · exact h.answers m hm
    · rw [List.mem_singleton.mp hm]
      trivial
  | _ => exact h

/-- The save holding the lock writes `y`, or fails and leaves the registry as it was. -/
theorem Retains.commit (h : d.Retains y) (fault : Option Error) :
    (d.step (.commit fault)).Retains y := by
  dsimp only [step]
  split
  · next _ sessions tree tasks hw =>
    refine ⟨h.engine, Contents.mem_ids_unless h.registry (h.writing _ hw),
      fun w hw' => absurd hw' (by simp), fun m hm => ?_⟩
    rcases List.mem_append.mp hm with hm | hm
    · exact h.answers m hm
    · -- a failed save reports only that it failed
      cases fault <;> simp at hm
      rw [hm]
      trivial
  · exact h

theorem retains_step (hs : d.Sound) (h : d.Retains y) {ev : Event} (hev : ev.spares y = true) :
    (d.step ev).Retains y := by
  cases ev with
  | message m fault clock =>
    have hdel : y ∉ m.deletes := by simpa [Event.spares] using hev
    dsimp only [step]
    split
    · exact h
    · next hm =>
      have hl := Message.ne_reloadLoaded_of_outside (eq_false_of_ne_true hm)
      split
      · exact h.take hs hdel hl rfl (List.Sublist.refl _) rfl h.registry
      · next s _ =>
        split
        · exact h
        · -- the session stored, if it is, keeps `y` beside it
          exact h.take hs hdel hl rfl (List.Sublist.refl _) rfl (Contents.mem_ids_unless
            h.registry ((Contents.mem_ids_putSession s).mpr (.inl h.registry)))
  | call c clock =>
    have hq := Engine.quiet_take_call d.engine c clock
    exact h.of_engine hs (h.engine.of_quiet hq) (Nat.le_of_eq hq.reloadVersion.symm)
      (List.Sublist.refl _) rfl h.registry
  | report i clock =>
    dsimp only [step]
    split
    · next m hm =>
      have hreg := hs.reports m (List.mem_of_getElem? hm)
      have hsub := List.eraseIdx_sublist d.inbox i
      by_cases hl : ∃ v r, m = .reloadLoaded v r
      · obtain ⟨v, r, rfl⟩ := hl
        by_cases hcur : v = d.engine.reloadVersion ∧ d.engine.reloading = true
        · obtain ⟨rfl, hr⟩ := hcur
          exact h.finishReload hs hm hr
        · -- a stale answer is dropped
          have hq := Engine.quiet_take_stale d.engine r (.ok ()) clock hcur
          exact h.of_engine hs (h.engine.of_quiet hq) (Nat.le_of_eq hq.reloadVersion.symm) hsub
            rfl h.registry
      · -- the other reports ask to delete nothing
        have hdel : y ∉ m.deletes := by
          rw [Message.deletes_of_fromRegistry hreg]
          exact List.not_mem_nil
        exact h.take hs hdel (fun v r he => hl ⟨v, r, he⟩) rfl hsub rfl h.registry
    · exact h
  | work i fault =>
    simp only [Event.spares, Option.isNone_iff_eq_none] at hev
    subst hev
    dsimp only [step]
    split
    · next j hj =>
      have hmem := List.mem_of_getElem? hj
      split
      · exact h
      · next hfree =>
        refine (h.dropJob i).perform ((h.engine.saves j hmem).mono (Nat.le_refl _)
          (Nat.le_refl _)) (h.engine.removals j hmem) fun hlock => ?_
        show d.writing = none
        simpa [hlock] using hfree
    · exact h
  | commit fault => exact h.commit fault

/-- The registry as another process leaves it. -/
theorem Sound.foreign (hs : d.Sound) (w : Foreign) :
    { d with registry := w.apply d.registry }.Sound :=
  ⟨hs.saves, hs.loads, hs.kept, hs.reports⟩

theorem sound_share (hs : d.Sound) (ev : SharedEvent) : (d.share ev).Sound := by
  cases ev with
  | deck ev => exact sound_step hs ev
  | foreign w clock =>
    dsimp only [share]
    exact sound_step (hs.foreign w) _

theorem sound_shareRun (hs : d.Sound) (evs : List SharedEvent) : (d.shareRun evs).Sound := by
  induction evs generalizing d with
  | nil => exact hs
  | cons ev evs ih => exact ih (sound_share hs ev)

theorem retains_share (hs : d.Sound) (h : d.Retains y) {ev : SharedEvent}
    (hev : ev.spares y = true) : (d.share ev).Retains y := by
  cases ev with
  | deck ev => exact retains_step hs h hev
  | foreign w clock =>
    dsimp only [share]
    exact retains_step (hs.foreign w)
      ⟨h.engine, Foreign.mem_ids_apply hev h.registry, h.writing, h.answers⟩ rfl

theorem retains_shareRun (hs : d.Sound) (h : d.Retains y) {evs : List SharedEvent}
    (hev : evs.all (·.spares y) = true) : (d.shareRun evs).Retains y := by
  induction evs generalizing d with
  | nil => exact h
  | cons ev evs ih =>
    simp only [List.all_cons, Bool.and_eq_true] at hev
    exact ih (sound_share hs ev) (retains_share hs h hev.1) hev.2

/-! ### Before the write -/

theorem undeleted_step (hs : d.Sound) (h : d.engine.Undeleted y) {ev : Event}
    (hev : y ∉ ev.deletes) : (d.step ev).engine.Undeleted y := by
  cases ev with
  | message m fault clock =>
    dsimp only [step]
    split
    · exact h
    · split
      · exact h.take _ clock hev
      · split
        · exact h
        · exact h.take _ clock hev
  | call c clock => exact h.of_quiet (Engine.quiet_take_call d.engine c clock)
  | report i clock =>
    dsimp only [step]
    split
    · next m hm =>
      -- reports ask to delete nothing
      refine h.take _ clock ?_
      rw [Message.deletes_of_fromRegistry (hs.reports m (List.mem_of_getElem? hm))]
      exact List.not_mem_nil
    · exact h
  | work i fault =>
    dsimp only [step]
    split
    · split
      · exact h
      · rw [perform_engine]
        exact h.eraseIdx i
    · exact h
  | commit fault =>
    dsimp only [step]
    split <;> exact h

theorem undeleted_share (hs : d.Sound) (h : d.engine.Undeleted y) {ev : SharedEvent}
    (hev : y ∉ ev.deletes) : (d.share ev).engine.Undeleted y := by
  cases ev with
  | deck ev => exact undeleted_step hs h hev
  | foreign w clock =>
    dsimp only [share]
    exact undeleted_step (hs.foreign w) h List.not_mem_nil

theorem undeleted_shareRun (hs : d.Sound) (h : d.engine.Undeleted y) {evs : List SharedEvent}
    (hev : ∀ ev ∈ evs, y ∉ ev.deletes) : (d.shareRun evs).engine.Undeleted y := by
  induction evs generalizing d with
  | nil => exact h
  | cons ev evs ih =>
    exact ih (sound_share hs ev) (undeleted_share hs h (hev ev List.mem_cons_self))
      fun ev' hm => hev ev' (List.mem_cons_of_mem _ hm)

theorem undeleted_start (config : Config) (registry : Registry) (mux : Mux) (git : GitLookup)
    (now : Nat) (c : Contents) (v : ViewState) (y : String) :
    (start (Engine.new config registry mux git now) c v).engine.Undeleted y := by
  obtain ⟨e₁, hq, hj, -, -, -, -, hpd, -⟩ :=
    Engine.boot_spec (Engine.new config registry mux git now) (c.snapshot none) v
  have hpd' : e₁.pendingDeletes = [] := hpd
  have hj' : e₁.jobs = [] := hj
  have hu : e₁.Undeleted y :=
    ⟨fun b hb => absurd (hpd' ▸ hb) List.not_mem_nil,
      fun j hmem => absurd (hj' ▸ hmem) List.not_mem_nil⟩
  exact hu.of_quiet hq

/-! ### The write -/

theorem retains_upsert (hs : d.Sound) {s : Session} (hu : d.engine.Undeleted s.id)
    (hw : d.writing = none) (clock : Nat) :
    (d.share (.foreign (.upsert s) clock)).Retains s.id := by
  rw [share_foreign]
  refine ⟨?_, (Contents.mem_ids_putSession s).mpr (.inr rfl), fun w hw' => ?_, fun m hm => ?_⟩
  · -- every queued save was scheduled no later, so the reload leaves them all out of date
    refine (hu.of_quiet (Engine.quiet_clock d.engine clock)).spares_of_savedBefore fun j hj => ?_
    cases j <;> exact hs.saves _ hj
  · simp [hw] at hw'
  · -- every waiting answer is of a load older than the reload
    show m.ReadsAt s.id (d.engine.reloadVersion + 1)
    exact Message.readsAt_of_lt fun v hv =>
      Nat.lt_succ_of_le (hs.loads.below v (mem_loads_of_inbox (d := d) hm hv))

/-- A session that another process stores in the registry, at a moment when no save of the
engine holds the save lock, stays in the registry through every later run in which the engine is
asked to delete no session with its id, no job's access to the registry fails and the other
process removes no session with its id, provided the engine was asked to delete none before. -/
theorem added_session_kept (config : Config) (registry : Registry) (mux : Mux) (git : GitLookup)
    (now : Nat) (c : Contents) (v : ViewState) (pre post : List SharedEvent) (s : Session)
    (clock : Nat) (hpre : ∀ ev ∈ pre, s.id ∉ ev.deletes)
    (hidle : ((start (Engine.new config registry mux git now) c v).shareRun pre).writing = none)
    (hpost : post.all (·.spares s.id) = true) :
    s.id ∈ ((start (Engine.new config registry mux git now) c v).shareRun
      (pre ++ .foreign (.upsert s) clock :: post)).registry.sessions.map (·.id) := by
  have hs₀ := sound_start config registry mux git now c v
  have hs := sound_shareRun hs₀ pre
  have hu := undeleted_shareRun hs₀ (undeleted_start config registry mux git now c v s.id) hpre
  rw [shareRun_append, shareRun_cons]
  exact (retains_shareRun (sound_share hs _) (retains_upsert hs hu hidle clock) hpost).registry

/-! ### Runs -/

/-- A registry that holds one session, `k`. -/
def soloContents : Contents :=
  { sessions := [{ id := "k", title := "keep", projectPath := "/p/k", createdAt := World.epoch }],
    updatedAt := World.epoch }

/-- The session another process adds. -/
def addedSession : Session :=
  { id := "y", title := "added", projectPath := "/p/y", createdAt := World.epoch }

/-- A session the engine is asked to create. -/
def createdSession : Session :=
  { id := "s", title := "new", projectPath := "/p/s", createdAt := World.epoch }

/-- Another process stores `y`; during the reload that follows the engine is asked to create `s`,
reads the registry back and saves: `y` stays. -/
theorem added_session_survives_save :
    "y" ∈ ((start (Engine.new {} ⟨"/r/sessions.json", "test"⟩ Mux.memory GitLookup.inert 0)
      soloContents {}).shareRun ([] ++ .foreign (.upsert addedSession) 0 ::
        [.deck (.message (.lifecycle (.created createdSession)) none 0), .deck (.work 1 none),
          .deck (.report 0 0), .deck (.work 1 none), .deck (.commit none)])).registry.sessions.map
      (·.id) :=
  added_session_kept {} ⟨"/r/sessions.json", "test"⟩ Mux.memory GitLookup.inert 0 soloContents {}
    [] _ addedSession 0 (fun _ h => absurd h List.not_mem_nil) rfl (by cbv)

/-- Without the provisos the session goes, though the engine is asked to delete nothing: another
process stores `y`, the engine is asked to create `s` during the reload that follows, and the
reload's read of the registry fails. The engine then saves what it held, `k` and `s`, over the
registry. -/
theorem foreign_session_dropped :
    ¬ ∀ (config : Config) (registry : Registry) (mux : Mux) (git : GitLookup) (now : Nat)
        (c : Contents) (v : ViewState) (s : Session) (clock : Nat) (evs : List Event),
      (∀ ev ∈ evs, s.id ∉ ev.deletes) →
      s.id ∈ ((start (Engine.new config registry mux git now) c v).shareRun
        (.foreign (.upsert s) clock :: evs.map .deck)).registry.sessions.map (·.id) := by
  intro hall
  have hkept := hall {} ⟨"/r/sessions.json", "test"⟩ Mux.memory GitLookup.inert 0 soloContents {}
    addedSession 0 [.message (.lifecycle (.created createdSession)) none 0,
      .work 1 (some (.io ⟨.other, "interrupted"⟩)), .report 0 0, .work 1 none, .commit none]
    (by simp [Event.deletes, Message.deletes])
  -- the save writes `k` and `s` only
  exact absurd hkept (by cbv; show "y" ∉ ["k", "s"]; simp)

/-- Nor may a save hold the save lock when the other process writes: the engine renames `k`, the
save this queues passes its check and takes the lock, another process stores `y`, and the save
then writes what the engine held, `k` alone, over the registry. -/
theorem foreign_session_overwritten :
    ¬ ∀ (config : Config) (registry : Registry) (mux : Mux) (git : GitLookup) (now : Nat)
        (c : Contents) (v : ViewState) (pre post : List SharedEvent) (s : Session) (clock : Nat),
      (∀ ev ∈ pre, s.id ∉ ev.deletes) → post.all (·.spares s.id) = true →
      s.id ∈ ((start (Engine.new config registry mux git now) c v).shareRun
        (pre ++ .foreign (.upsert s) clock :: post)).registry.sessions.map (·.id) := by
  intro hall
  have hkept := hall {} ⟨"/r/sessions.json", "test"⟩ Mux.memory GitLookup.inert 0 soloContents {}
    [.deck (.call (.rename "k" "kept") 0), .deck (.work 1 none)] [.deck (.commit none)]
    addedSession 0 (by simp [SharedEvent.deletes, Event.deletes]) rfl
  -- the held save writes `k` alone
  exact absurd hkept (by cbv; show "y" ∉ ["k"]; simp)

end Deck

end AgentDeck
