import AgentDeck.Proofs.Deck.Sound

/-!
A deleted session stays deleted.

Deleting a session outside a reload takes it out of memory at once, guards its id and queues its
removal from the registry. Until the removal is stored the guard keeps every load's answer from
bringing the session back; once it is stored, the registry no longer holds the session, no save
that could write it back is current, and a load that still holds it was read under an older
reload. `Deck.Gone` is that invariant, with the stage of the removal in `Deck.Removal`. Every event
in which no registry access fails and no session with the deleted id is stored keeps it.

The guard goes with the report of any removal of the id. A report of an earlier removal of the
same id, undone since, that still waits when the id is deleted again clears the new guard before
the new removal lands, and a reload in between reads the session back: `revived_by_earlier_report`
replays such a run, and `deleted_session_stays_deleted` assumes no such report waits. A removal
that fails is reported as well, and its report clears the guard all the same, so a reload reads
the session back from the registry that still holds it (`revived_after_failed_removal`): the
theorem assumes no registry access fails.
-/

namespace AgentDeck

/-- The ids a lifecycle message deletes. -/
def Message.deletes : Message → List String
  | .lifecycle (.deleted id _) => [id]
  | .lifecycle (.bulkDeleted ids _) => ids
  | _ => []

/-- A report that a removal of `x` from the registry went. -/
def Message.reportsRemoval (x : String) : Message → Bool
  | .deletesPersisted ids _ => ids.contains x
  | _ => false

/-- An answer of a load that holds `x` was read under a reload older than `rv`. -/
def Message.OldIfHolds (x : String) (rv : Nat) : Message → Prop
  | .reloadLoaded v (.ok snap) => x ∈ snap.sessions.map (·.id) → v < rv
  | _ => True

/-- A queued save that would write `x` back was overtaken, in `e`, by a reload or a later
save. -/
def Job.LeavesOut (x : String) (e : Engine) : Job → Prop
  | .save v q sessions _ _ => x ∈ sessions.map (·.id) → v < e.reloadVersion ∨ q < e.saveSeq
  | _ => True

section Messages

variable {x : String} {m : Message}

theorem Message.OldIfHolds.mono {rv rv' : Nat} (h : m.OldIfHolds x rv) (hv : rv ≤ rv') :
    m.OldIfHolds x rv' := by
  cases m <;> simp only [Message.OldIfHolds] at h ⊢
  case reloadLoaded v r =>
    cases r <;> simp only at h ⊢
    exact fun hx => Nat.lt_of_lt_of_le (h hx) hv

theorem Message.oldIfHolds_of {rv : Nat} (h : ∀ v, m.loadVersion? = some v → v < rv) :
    m.OldIfHolds x rv := by
  cases m <;> simp only [Message.OldIfHolds]
  case reloadLoaded v r =>
    cases r <;> simp only
    exact fun _ => h v rfl

theorem Message.reportsRemoval_of_outside (h : m.fromRegistry = false) :
    m.reportsRemoval x = false := by
  cases m <;> simp_all [Message.fromRegistry, Message.reportsRemoval]

theorem Message.ne_reloadLoaded_of_outside (h : m.fromRegistry = false) (v : Nat)
    (r : Except Error Snapshot) : m ≠ .reloadLoaded v r := by
  rintro rfl
  exact absurd h Bool.noConfusion

/-- Only messages from outside store a session. -/
theorem Engine.storedBy_of_fromRegistry (e : Engine) (h : m.fromRegistry = true) :
    e.storedBy m = none := by
  cases m <;> simp_all [Message.fromRegistry, Engine.storedBy]

end Messages

theorem Job.LeavesOut.mono {x : String} {e e' : Engine} {j : Job} (h : j.LeavesOut x e)
    (hv : e.reloadVersion ≤ e'.reloadVersion) (hq : e.saveSeq ≤ e'.saveSeq) :
    j.LeavesOut x e' := by
  cases j <;> simp only [Job.LeavesOut] at h ⊢
  case save => exact fun hx => (h hx).imp (Nat.lt_of_lt_of_le · hv) (Nat.lt_of_lt_of_le · hq)

namespace Engine

variable {x : String} {e e' : Engine}

/-- `x` is out of the engine: not held, not kept aside during a reload, and no queued save
that would write it back is current. -/
structure Lacks (x : String) (e : Engine) : Prop where
  absent : x ∉ e.sessions.map (·.id)
  notKept : x ∉ e.forceSaved.map (·.id)
  saves : ∀ j ∈ e.jobs, j.LeavesOut x e

theorem Queues.leavesOut (h : Queues e e') (hx : x ∉ e'.sessions.map (·.id))
    (hs : ∀ j ∈ e.jobs, j.LeavesOut x e') : ∀ j ∈ e'.jobs, j.LeavesOut x e' := by
  obtain ⟨new, hj, hb⟩ := h.jobs
  intro j hmem
  rw [hj] at hmem
  rcases List.mem_append.mp hmem with hmem | hmem
  · exact hs j hmem
  · have hq := hb j hmem
    cases j <;> simp only [Job.Queued] at hq <;> simp only [Job.LeavesOut]
    case save => exact fun hmem' => absurd (hq.2.2.1 ▸ hmem') hx

namespace Lacks

theorem of_queues (h : e.Lacks x) (hq : Queues e e') (hi : x ∉ e'.sessions.map (·.id))
    (hf : x ∉ e'.forceSaved.map (·.id)) : e'.Lacks x :=
  ⟨hi, hf, hq.leavesOut hi fun j hj =>
    (h.saves j hj).mono (Nat.le_of_eq hq.reloadVersion.symm) hq.saveSeq⟩

theorem of_quiet (h : e.Lacks x) (hq : Quiet e e') : e'.Lacks x :=
  h.of_queues hq.queues (hq.ids ▸ h.absent) (hq.forceSaved ▸ h.notKept)

theorem startReload (h : e.Lacks x) : e.startReload.Lacks x := by
  rw [startReload_eq]
  refine ⟨h.absent, h.notKept, fun j hj => ?_⟩
  rcases List.mem_append.mp hj with hj | hj
  · exact (h.saves j hj).mono (Nat.le_succ _) (Nat.le_refl _)
  · rw [List.mem_singleton.mp hj]
    trivial

theorem addSession (h : e.Lacks x) {s : Session} (anim : Animation) (stored : Except Error Unit)
    (hs : s.id ≠ x) : (e.addSession s anim stored).Lacks x := by
  refine h.of_queues (steady_addSession s anim stored).toQueues ?_ ?_
  · rw [mem_ids_addSession s anim stored x]
    rintro (hx | ⟨-, rfl⟩)
    · exact h.absent hx
    · exact hs rfl
  · rw [addSession_forceSaved s anim stored]
    split
    · rw [List.map_append, List.mem_append]
      rintro (hx | hx)
      · exact h.notKept hx
      · exact hs (List.mem_singleton.mp hx).symm
    · exact h.notKept

theorem deleteSessions (h : e.Lacks x) (l : List String) (kill : Bool) :
    (e.deleteSessions l kill).Lacks x := by
  refine h.of_queues (steady_deleteSessions l kill).toQueues
    (fun hx => h.absent ((mem_ids_deleteSessions l kill x).mp hx).1) ?_
  rw [deleteSessions_forceSaved]
  exact h.notKept

theorem restoreSession (h : e.Lacks x) {s : Session} (stored : Except Error Unit)
    (hs : s.id ≠ x) : (e.restoreSession s stored).Lacks x := by
  refine h.of_queues (steady_restoreSession s stored).toQueues
    (fun hx => ((mem_ids_restoreSession s stored x).mp hx).elim h.absent fun he => hs he.symm) ?_
  rw [restoreSession_forceSaved]
  exact h.notKept

/-- Handling a message that answers no load and stores no session with id `x` keeps `x` out. -/
theorem react (h : e.Lacks x) (m : Message) (stored : Except Error Unit)
    (hs : ∀ s, e.storedBy m = some s → s.id ≠ x) (hl : ∀ v r, m ≠ .reloadLoaded v r) :
    (e.react m stored).Lacks x := by
  cases hm : m.touchesBookkeeping
  · exact h.of_quiet (quiet_react e stored hm)
  cases m <;> simp only [Message.touchesBookkeeping, Bool.false_eq_true] at hm
  case storageChanged => exact h.startReload
  case lifecycle ev =>
    cases ev with
    | created s => exact h.addSession .launching stored (hs s rfl)
    | forked s => exact h.addSession .forking stored (hs s rfl)
    | deleted id kill => exact h.deleteSessions [id] kill
    | bulkDeleted ids kill => exact h.deleteSessions ids kill
    | restored =>
      rcases react_restored e stored with ⟨s, hs', he⟩ | ⟨-, he⟩
      · rw [he]
        exact h.restoreSession stored (hs s hs')
      · rw [he]
        exact h
  case reloadLoaded v r => exact absurd rfl (hl v r)
  case deletesPersisted ids r =>
    show (e.onDeletesPersisted ids r).Lacks x
    refine h.of_queues (steady_onDeletesPersisted ids r).toQueues ?_ ?_
    · rw [onDeletesPersisted_sessions]
      exact h.absent
    · rw [onDeletesPersisted_forceSaved]
      exact h.notKept

theorem take (h : e.Lacks x) {m : Message} (stored : Except Error Unit) (clock : Nat)
    (hs : ∀ s, e.storedBy m = some s → s.id ≠ x) (hl : ∀ v r, m ≠ .reloadLoaded v r) :
    (e.take (.message m stored clock)).Lacks x :=
  (h.of_quiet (quiet_clock e clock)).react m stored hs hl

end Lacks

theorem guard_react {m : Message} {b : Bool} (stored : Except Error Unit)
    (hx : x ∉ e.sessions.map (·.id)) (hp : (x, b) ∈ e.pendingDeletes)
    (hs : ∀ s, e.storedBy m = some s → s.id ≠ x) (hr : m.reportsRemoval x = false)
    (hl : ∀ v r, m ≠ .reloadLoaded v r) : (x, b) ∈ (e.react m stored).pendingDeletes := by
  cases hm : m.touchesBookkeeping
  · exact (quiet_react e stored hm).pendingDeletes ▸ hp
  cases m <;> simp only [Message.touchesBookkeeping, Bool.false_eq_true] at hm
  case storageChanged => exact hp
  case lifecycle ev =>
    cases ev with
    | created s =>
      show (x, b) ∈ (e.addSession s .launching stored).pendingDeletes
      rw [addSession_pendingDeletes]
      exact hp
    | forked s =>
      show (x, b) ∈ (e.addSession s .forking stored).pendingDeletes
      rw [addSession_pendingDeletes]
      exact hp
    | deleted id kill => exact mem_pendingDeletes_deleteSessions [id] kill hp hx
    | bulkDeleted ids kill => exact mem_pendingDeletes_deleteSessions ids kill hp hx
    | restored =>
      rcases react_restored e stored with ⟨s, hs', he⟩ | ⟨-, he⟩
      · rw [he]
        exact (mem_pendingDeletes_restoreSession s stored _).mpr ⟨hp, fun hid => hs s hs' hid.symm⟩
      · rw [he]
        exact hp
  case reloadLoaded v r => exact absurd rfl (hl v r)
  case deletesPersisted ids r =>
    have hnot : x ∉ ids := by simpa [Message.reportsRemoval] using hr
    exact mem_pendingDeletes_onDeletesPersisted ids r hp hnot

/-- No handler but that of a finished load moves the reload version, and that of a storage
change moves it forward. -/
theorem reloadVersion_react (m : Message) (stored : Except Error Unit)
    (hl : ∀ v r, m ≠ .reloadLoaded v r) : e.reloadVersion ≤ (e.react m stored).reloadVersion := by
  by_cases hs : m = .storageChanged
  · subst hs
    exact Nat.le_succ _
  · exact Nat.le_of_eq (steady_react e m stored hs hl).reloadVersion.symm

end Engine

/-- The event has the engine store a session with id `x`: one created or forked, or the one an
undo brings back. -/
def Event.brings (x : String) (d : Deck) : Event → Bool
  | .message m _ _ => (d.engine.storedBy m).any (·.id == x)
  | _ => false

namespace Deck

variable {x : String} {d d' : Deck}

/-- `x` is out of the registry and out of the save that holds the save lock. -/
structure Cleared (x : String) (d : Deck) : Prop where
  registry : x ∉ d.registry.sessions.map (·.id)
  writing : ∀ w ∈ d.writing, x ∉ w.1.map (·.id)

/-- Where the removal of a deleted `x` stands. -/
inductive Removal (x : String) (d : Deck) : Prop
  /-- Not stored yet: `x` is guarded as not landed and no report of a removal of `x` waits. -/
  | queued (reports : ∀ m ∈ d.inbox, m.reportsRemoval x = false)
      (guard : (x, false) ∈ d.engine.pendingDeletes)
  /-- Stored: `x` is out of the registry and the save lock, and it is guarded still or every
  waiting answer of a load that holds it is old. -/
  | landed (cleared : d.Cleared x)
      (guard : (∃ b, (x, b) ∈ d.engine.pendingDeletes) ∨
        ∀ m ∈ d.inbox, m.OldIfHolds x d.engine.reloadVersion)

/-- A deleted `x` is gone: out of the engine, with its removal queued or stored. -/
structure Gone (x : String) (d : Deck) : Prop where
  lacks : d.engine.Lacks x
  removal : d.Removal x

/-! ### What each event does -/

/-- A step that keeps `x` out of the engine and its guard in place, does not move the reload
version back, and adds no report, no write and no registry entry of `x`, keeps `x` gone. -/
theorem Gone.of_engine (h : d.Gone x) (hl : d'.engine.Lacks x)
    (hg : ∀ b, (x, b) ∈ d.engine.pendingDeletes → (x, b) ∈ d'.engine.pendingDeletes)
    (hv : d.engine.reloadVersion ≤ d'.engine.reloadVersion) (hi : d'.inbox.Sublist d.inbox)
    (hw : d'.writing = d.writing)
    (hr : x ∉ d.registry.sessions.map (·.id) → x ∉ d'.registry.sessions.map (·.id)) :
    d'.Gone x := by
  refine ⟨hl, ?_⟩
  rcases h.removal with ⟨hrep, hguard⟩ | ⟨hc, hguard⟩
  · exact .queued (fun m hm => hrep m (hi.subset hm)) (hg false hguard)
  · refine .landed ⟨hr hc.registry, ?_⟩ ?_
    · rw [hw]
      exact hc.writing
    · rcases hguard with ⟨b, hb⟩ | hold
      · exact .inl ⟨b, hg b hb⟩
      · exact .inr fun m hm => (hold m (hi.subset hm)).mono hv

theorem Gone.of_quiet (h : d.Gone x) (hq : Engine.Quiet d.engine d'.engine)
    (hi : d'.inbox.Sublist d.inbox) (hw : d'.writing = d.writing) (hr : d'.registry = d.registry) :
    d'.Gone x := by
  refine h.of_engine (h.lacks.of_quiet hq) (fun b hb => ?_) (Nat.le_of_eq hq.reloadVersion.symm)
    hi hw fun hx => ?_
  · rw [hq.pendingDeletes]
    exact hb
  · rw [hr]
    exact hx

/-- Handling a message that answers no load, reports no removal of `x` and stores no session
with id `x` keeps `x` gone. -/
theorem Gone.take (h : d.Gone x) {m : Message} {stored : Except Error Unit} {clock : Nat}
    (hs : ∀ s, d.engine.storedBy m = some s → s.id ≠ x) (hrep : m.reportsRemoval x = false)
    (hl : ∀ v r, m ≠ .reloadLoaded v r)
    (he : d'.engine = d.engine.take (.message m stored clock)) (hi : d'.inbox.Sublist d.inbox)
    (hw : d'.writing = d.writing)
    (hr : x ∉ d.registry.sessions.map (·.id) → x ∉ d'.registry.sessions.map (·.id)) :
    d'.Gone x := by
  refine h.of_engine ?_ (fun b hb => ?_) ?_ hi hw hr
  · rw [he]
    exact h.lacks.take stored clock hs hl
  · rw [he]
    exact Engine.guard_react (e := { d.engine with clock }) stored h.lacks.absent hb hs hrep hl
  · rw [he]
    exact Engine.reloadVersion_react (e := { d.engine with clock }) m stored hl

theorem mem_loads_of_inbox {m : Message} {v : Nat} (hm : m ∈ d.inbox)
    (hv : m.loadVersion? = some v) : v ∈ d.loads :=
  List.mem_append_right _ (List.mem_filterMap.mpr ⟨m, hm, hv⟩)

/-- Outside a reload every waiting answer is of an older load. -/
theorem Sound.lt_of_idle (hs : d.Sound) (hr : d.engine.reloading = false) :
    ∀ m ∈ d.inbox, ∀ v, m.loadVersion? = some v → v < d.engine.reloadVersion := by
  intro m hm v hv
  have hl := mem_loads_of_inbox hm hv
  exact Nat.lt_of_le_of_ne (hs.loads.below v hl) fun he => hs.loads.idle hr (he ▸ hl)

theorem Sound.old_of_idle (hs : d.Sound) (hr : d.engine.reloading = false) :
    ∀ m ∈ d.inbox, m.OldIfHolds x d.engine.reloadVersion :=
  fun m hm => Message.oldIfHolds_of (hs.lt_of_idle hr m hm)

/-- Beside the answer of the current load, every waiting answer is of an older load. -/
theorem Sound.lt_of_current (hs : d.Sound) {i : Nat} {r : Except Error Snapshot}
    (hm : d.inbox[i]? = some (.reloadLoaded d.engine.reloadVersion r)) :
    ∀ m ∈ d.inbox.eraseIdx i, ∀ v, m.loadVersion? = some v → v < d.engine.reloadVersion := by
  intro m hm' v hv
  have hl := mem_loads_of_inbox ((List.eraseIdx_sublist _ i).subset hm') hv
  refine Nat.lt_of_le_of_ne (hs.loads.below v hl) fun he => ?_
  -- the current version is among the loads once: as the answer taken in
  have hin : 0 < ((d.inbox.eraseIdx i).filterMap Message.loadVersion?).count
      d.engine.reloadVersion :=
    List.count_pos_iff.mpr (he ▸ List.mem_filterMap.mpr ⟨m, hm', hv⟩)
  have hcount := hs.loads.once
  unfold Deck.loads at hcount
  rw [List.count_append, (perm_filterMap_eraseIdx Message.loadVersion? hm).count_eq]
    at hcount
  simp only [Message.loadVersion?, Option.toList_some, List.singleton_append,
    List.count_cons_self] at hcount
  omega

theorem Sound.old_of_current (hs : d.Sound) {i : Nat} {r : Except Error Snapshot}
    (hm : d.inbox[i]? = some (.reloadLoaded d.engine.reloadVersion r)) :
    ∀ m ∈ d.inbox.eraseIdx i, m.OldIfHolds x d.engine.reloadVersion :=
  fun m hm' => Message.oldIfHolds_of (hs.lt_of_current hm m hm')

/-- The report of the stored removal of `x` drops its guard, or during a reload marks it. -/
theorem Gone.settle (hs : d.Sound) (h : d.Gone x) {i clock : Nat} {ids : List String}
    {r : Except Error Unit} (hm : d.inbox[i]? = some (.deletesPersisted ids r)) (hx : x ∈ ids) :
    ({ d with inbox := d.inbox.eraseIdx i,
              engine := d.engine.take (.message (.deletesPersisted ids r) (.ok ()) clock) }).Gone
      x := by
  have hmem := List.mem_of_getElem? hm
  have hsub := List.eraseIdx_sublist d.inbox i
  have hv := (Engine.steady_onDeletesPersisted (e := { d.engine with clock }) ids r).reloadVersion
  refine ⟨h.lacks.take (m := .deletesPersisted ids r) (.ok ()) clock
    (fun _ hs' => by simp [Engine.storedBy] at hs') (fun _ _ => Message.noConfusion), ?_⟩
  rcases h.removal with ⟨hrep, -⟩ | ⟨hc, hguard⟩
  · -- no report of a removal of `x` waits before it is stored
    have hnone := hrep _ hmem
    simp [Message.reportsRemoval, hx] at hnone
  · refine .landed ⟨hc.registry, hc.writing⟩ ?_
    cases hr : d.engine.reloading
    · exact .inr fun m hm' => (hs.old_of_idle hr m (hsub.subset hm')).mono (Nat.le_of_eq hv.symm)
    · rcases hguard with ⟨b, hb⟩ | hold
      · exact .inl ⟨true, Engine.onDeletesPersisted_marks (e := { d.engine with clock }) ids r hr
          hb hx⟩
      · exact .inr fun m hm' => (hold m (hsub.subset hm')).mono (Nat.le_of_eq hv.symm)

/-- The answer of the current load ends the reload without reading `x` back: `x` is guarded,
or the answer holds it only if it was read before `x` left the registry, under an older
reload. -/
theorem Gone.finishReload (hs : d.Sound) (h : d.Gone x) {i clock : Nat}
    {r : Except Error Snapshot} (hm : d.inbox[i]? = some (.reloadLoaded d.engine.reloadVersion r))
    (hr : d.engine.reloading = true) :
    ({ d with inbox := d.inbox.eraseIdx i,
              engine := d.engine.take
                (.message (.reloadLoaded d.engine.reloadVersion r) (.ok ()) clock) }).Gone x := by
  have hv : d.engine.reloadVersion = ({ d.engine with clock } : Engine).reloadVersion := rfl
  obtain ⟨hq, -, hf, hpd⟩ := Engine.finishReload_current (e := { d.engine with clock }) hv hr r
  have hmem := List.mem_of_getElem? hm
  have hx : x ∉ (({ d.engine with clock } : Engine).finishReload d.engine.reloadVersion
      r).sessions.map (·.id) := by
    cases r with
    | error err =>
      rw [Engine.mem_ids_finishReload_error (e := { d.engine with clock }) hv hr err x]
      exact fun hx => hx.elim h.lacks.absent h.lacks.notKept
    | ok snap =>
      rw [Engine.mem_ids_finishReload_ok (e := { d.engine with clock }) hv hr snap x]
      refine fun hx => hx.elim (fun ⟨hsnap, hnone⟩ => ?_) h.lacks.notKept
      have hunguarded : ∀ b, (x, b) ∉ d.engine.pendingDeletes := fun b hb =>
        Bool.false_ne_true (hnone.symm.trans ((lookup_isSome_iff _ x).mpr ⟨b, hb⟩))
      rcases h.removal with ⟨-, hguard⟩ | ⟨-, ⟨b, hb⟩ | hold⟩
      · exact hunguarded false hguard
      · exact hunguarded b hb
      · exact Nat.lt_irrefl _ (hold _ hmem hsnap)
  refine ⟨⟨hx, ?_, hq.leavesOut hx fun j hj =>
    (h.lacks.saves j hj).mono (Nat.le_of_eq hq.reloadVersion.symm) hq.saveSeq⟩, ?_⟩
  · show x ∉ (({ d.engine with clock } : Engine).finishReload d.engine.reloadVersion
      r).forceSaved.map (·.id)
    rw [hf]
    exact List.not_mem_nil
  · rcases h.removal with ⟨hrep, hguard⟩ | ⟨hc, -⟩
    · exact .queued (fun m hm' => hrep m ((List.eraseIdx_sublist _ i).subset hm'))
        ((hpd _).mpr ⟨hguard, rfl⟩)
    · refine .landed ⟨hc.registry, hc.writing⟩ (.inr fun m hm' => ?_)
      show m.OldIfHolds x
        (({ d.engine with clock } : Engine).finishReload d.engine.reloadVersion r).reloadVersion
      rw [hq.reloadVersion]
      exact hs.old_of_current hm m hm'

theorem Gone.dropJob (h : d.Gone x) (i : Nat) : (d.dropJob i).Gone x :=
  h.of_engine ⟨h.lacks.absent, h.lacks.notKept,
      fun j hj => h.lacks.saves j ((List.eraseIdx_sublist _ i).subset hj)⟩
    (fun _ hb => hb) (Nat.le_refl _) (List.Sublist.refl _) rfl id

/-- A report added to the inbox that reports no removal of `x`, and holds `x` in no answer of a
load once `x` left the registry, keeps the stage of the removal. -/
theorem Removal.append (h : d.Removal x) {m : Message} (hm : m.reportsRemoval x = false)
    (ho : d.Cleared x → m.OldIfHolds x d.engine.reloadVersion) (he : d'.engine = d.engine)
    (hi : d'.inbox = d.inbox ++ [m]) (hw : d'.writing = d.writing)
    (hr : x ∉ d.registry.sessions.map (·.id) → x ∉ d'.registry.sessions.map (·.id)) :
    d'.Removal x := by
  rcases h with ⟨hrep, hguard⟩ | ⟨hc, hguard⟩
  · refine .queued (fun m' hm' => ?_) (by rw [he]; exact hguard)
    rw [hi] at hm'
    rcases List.mem_append.mp hm' with hm' | hm'
    · exact hrep m' hm'
    · rw [List.mem_singleton.mp hm']
      exact hm
  · refine .landed ⟨hr hc.registry, by rw [hw]; exact hc.writing⟩ ?_
    rw [he, hi]
    refine hguard.imp id fun hold m' hm' => ?_
    rcases List.mem_append.mp hm' with hm' | hm'
    · exact hold m' hm'
    · rw [List.mem_singleton.mp hm']
      exact ho hc

/-- A job that takes the save lock only when it is free, and is no current save of `x`, keeps
`x` gone when it does its work without failing. -/
theorem Gone.perform (h : d.Gone x) {j : Job} (hj : j.LeavesOut x d.engine)
    (hlock : j.takesSaveLock = true → d.writing = none) : (d.perform j none).Gone x := by
  cases j with
  | save v q sessions tree tasks =>
    dsimp only [Deck.perform]
    split
    · next hcur =>
      -- a save that is still current holds no `x`
      have hout : x ∉ sessions.map (·.id) := fun hx => by
        simp only [Engine.saveIsCurrent, Bool.and_eq_true, beq_iff_eq] at hcur
        rcases hj hx with hlt | hlt <;> omega
      refine ⟨h.lacks, ?_⟩
      rcases h.removal with ⟨hrep, hguard⟩ | ⟨hc, hguard⟩
      · exact .queued hrep hguard
      · refine .landed ⟨hc.registry, fun w hw => ?_⟩ hguard
        obtain rfl : (sessions, tree, tasks) = w := Option.mem_some_iff.mp hw
        exact hout
    · exact h
  | load v =>
    -- the answer is read from the registry as it is now
    refine ⟨h.lacks, h.removal.append (m := .reloadLoaded v (.ok (d.registry.snapshot none))) rfl
      (fun hc hx => absurd hx hc.registry) rfl rfl rfl id⟩
  | removeSessions ids =>
    refine ⟨h.lacks, ?_⟩
    have hreg : ∀ y, y ∈ (d.perform (.removeSessions ids) none).registry.sessions.map (·.id) ↔
        y ∈ d.registry.sessions.map (·.id) ∧ y ∉ ids := fun y =>
      Contents.mem_ids_dropSessions ids
    by_cases hx : x ∈ ids
    · -- the removal of `x` lands, and the save lock was free
      refine .landed ⟨fun hmem => ((hreg x).mp hmem).2 hx, fun w hw => ?_⟩ ?_
      · rw [show (d.perform (.removeSessions ids) none).writing = none from hlock rfl] at hw
        exact absurd hw (by simp)
      · rcases h.removal with ⟨-, hguard⟩ | ⟨-, ⟨b, hb⟩ | hold⟩
        · exact .inl ⟨false, hguard⟩
        · exact .inl ⟨b, hb⟩
        · refine .inr fun m hm => ?_
          rcases List.mem_append.mp hm with hm | hm
          · exact hold m hm
          · rw [List.mem_singleton.mp hm]
            trivial
    · exact h.removal.append (m := .deletesPersisted ids (outcome none))
        (by simpa [Message.reportsRemoval] using hx) (fun _ => trivial) rfl rfl rfl
        fun hout hmem => hout ((hreg x).mp hmem).1
  | _ => exact h

/-- The save holding the lock writes what it holds, without failing. -/
theorem Gone.commit (h : d.Gone x) : (d.step (.commit none)).Gone x := by
  dsimp only [step]
  split
  · next _ sessions tree tasks hw =>
    refine ⟨h.lacks, ?_⟩
    rcases h.removal with ⟨hrep, hguard⟩ | ⟨hc, hguard⟩
    · exact .queued (fun m hm => hrep m (by simpa using hm)) hguard
    · -- the registry now holds what the save wrote, which is not `x`
      refine .landed ⟨?_, fun w hw' => absurd hw' (by simp)⟩ ?_
      · rw [Contents.unless_none]
        exact hc.writing _ hw
      · simpa using hguard
  · exact h

theorem gone_step (hs : d.Sound) (h : d.Gone x) {ev : Event} (hf : ev.faultless = true)
    (hb : ev.brings x d = false) : (d.step ev).Gone x := by
  cases ev with
  | message m fault clock =>
    simp only [Event.faultless, Option.isNone_iff_eq_none] at hf
    subst hf
    dsimp only [step]
    split
    · exact h
    · next hm =>
      have hout : m.fromRegistry = false := eq_false_of_ne_true hm
      have hstored : ∀ s, d.engine.storedBy m = some s → s.id ≠ x := fun s hs' => by
        simpa [Event.brings, hs'] using hb
      split
      · exact h.take hstored (Message.reportsRemoval_of_outside hout)
          (Message.ne_reloadLoaded_of_outside hout) rfl (List.Sublist.refl _) rfl id
      · next s hs' =>
        split
        · exact h
        · refine h.take hstored (Message.reportsRemoval_of_outside hout)
            (Message.ne_reloadLoaded_of_outside hout) rfl (List.Sublist.refl _) rfl
            fun hx hmem => ?_
          -- the session stored has another id
          rw [Contents.unless_none, Contents.mem_ids_putSession] at hmem
          exact hmem.elim hx fun he => hstored s hs' he.symm
  | call c clock =>
    exact h.of_quiet (Engine.quiet_take_call d.engine c clock) (List.Sublist.refl _) rfl rfl
  | report i clock =>
    dsimp only [step]
    split
    · next m hm =>
      have hreg := hs.reports m (List.mem_of_getElem? hm)
      have hsub := List.eraseIdx_sublist d.inbox i
      have hnone : ∀ s, d.engine.storedBy m = some s → s.id ≠ x := fun s hs' => by
        rw [Engine.storedBy_of_fromRegistry _ hreg] at hs'
        cases hs'
      by_cases hl : ∃ v r, m = .reloadLoaded v r
      · obtain ⟨v, r, rfl⟩ := hl
        by_cases hcur : v = d.engine.reloadVersion ∧ d.engine.reloading = true
        · obtain ⟨rfl, hr⟩ := hcur
          exact h.finishReload hs hm hr
        · -- a stale answer is dropped
          have hq := Engine.quiet_take_stale d.engine r (.ok ()) clock hcur
          exact h.of_quiet hq hsub rfl rfl
      · have hl' : ∀ v r, m ≠ .reloadLoaded v r := fun v r he => hl ⟨v, r, he⟩
        cases hrep : m.reportsRemoval x
        · exact h.take hnone hrep hl' rfl hsub rfl id
        · -- the report of a removal of `x`
          cases m <;> simp only [Message.reportsRemoval, Bool.false_eq_true] at hrep
          case deletesPersisted ids r => exact h.settle hs hm (by simpa using hrep)
    · exact h
  | work i fault =>
    simp only [Event.faultless, Option.isNone_iff_eq_none] at hf
    subst hf
    dsimp only [step]
    split
    · next j hj =>
      split
      · exact h
      · next hfree =>
        refine (h.dropJob i).perform (h.lacks.saves j (List.mem_of_getElem? hj)) fun hlock => ?_
        show d.writing = none
        simpa [hlock] using hfree
    · exact h
  | commit fault =>
    simp only [Event.faultless, Option.isNone_iff_eq_none] at hf
    subst hf
    exact h.commit

/-- Some event of the run, in the deck it happens to, stores a session with id `x`. -/
def bringsBack (x : String) : Deck → List Event → Bool
  | _, [] => false
  | d, ev :: evs => ev.brings x d || (d.step ev).bringsBack x evs

/-- Every run in which no registry access fails and no session with id `x` is stored keeps
`x` gone. -/
theorem gone_run (hs : d.Sound) (h : d.Gone x) {evs : List Event}
    (hf : evs.all (·.faultless) = true) (hb : d.bringsBack x evs = false) :
    (d.run evs).Gone x := by
  induction evs generalizing d with
  | nil => exact h
  | cons ev evs ih =>
    simp only [List.all_cons, Bool.and_eq_true] at hf
    simp only [bringsBack, Bool.or_eq_false_iff] at hb
    exact ih (sound_step hs ev) (gone_step hs h hf.1 hb.1) hf.2 hb.2

/-! ### The delete -/

theorem gone_of_deleteSessions (hs : d.Sound) {l : List String} {kill : Bool} {clock : Nat}
    (hl : x ∈ l) (hidle : d.engine.reloading = false) (hx : x ∈ d.engine.sessions.map (·.id))
    (hquiet : ∀ m ∈ d.inbox, m.reportsRemoval x = false)
    (he : d'.engine = { d.engine with clock }.deleteSessions l kill) (hi : d'.inbox = d.inbox) :
    d'.Gone x := by
  have hsteady := Engine.steady_deleteSessions (e := { d.engine with clock }) l kill
  obtain ⟨hguard, hseq⟩ := Engine.deleteSessions_removes (e := { d.engine with clock }) l kill
    hidle hx hl
  have habsent : x ∉ (({ d.engine with clock } : Engine).deleteSessions l kill).sessions.map
      (·.id) := by
    rw [Engine.mem_ids_deleteSessions]
    rintro ⟨-, hr | hnot⟩
    · exact Bool.false_ne_true (hidle.symm.trans hr)
    · exact hnot hl
  rw [← he] at habsent hseq hguard hsteady
  refine ⟨⟨habsent, ?_, ?_⟩, ?_⟩
  · -- outside a reload nothing is kept aside
    rw [he, Engine.deleteSessions_forceSaved]
    show x ∉ d.engine.forceSaved.map (·.id)
    rw [hs.kept hidle]
    exact List.not_mem_nil
  · -- every older save is overtaken by the one the delete schedules
    refine hsteady.toQueues.leavesOut habsent fun j hj => ?_
    have hold := hs.saves j hj
    cases j <;> simp only [Job.SavedBefore] at hold <;> simp only [Job.LeavesOut]
    case save => exact fun _ => Or.inr (Nat.lt_of_le_of_lt hold.2 hseq)
  · exact .queued (fun m hm => hquiet m (by rwa [hi] at hm)) hguard

theorem gone_of_delete (hs : d.Sound) {m : Message} (hdel : x ∈ m.deletes)
    (hidle : d.engine.reloading = false) (hx : x ∈ d.engine.sessions.map (·.id))
    (hquiet : ∀ r ∈ d.inbox, r.reportsRemoval x = false) (fault : Option Error) (clock : Nat) :
    (d.step (.message m fault clock)).Gone x := by
  cases m with
  | lifecycle ev =>
    cases ev with
    | deleted id kill => exact gone_of_deleteSessions hs hdel hidle hx hquiet rfl rfl
    | bulkDeleted ids kill => exact gone_of_deleteSessions hs hdel hidle hx hquiet rfl rfl
    | _ => exact absurd hdel List.not_mem_nil
  | _ => exact absurd hdel List.not_mem_nil

/-- A session deleted outside a reload stays out of memory through every later run in which no
registry access fails and no session with its id is created, forked or brought back by an undo,
provided no report of an earlier removal of the same id still waits when it is deleted. -/
theorem deleted_session_stays_deleted (hd : d.Reachable) {m : Message} (hdel : x ∈ m.deletes)
    (hidle : d.engine.reloading = false) (hx : x ∈ d.engine.sessions.map (·.id))
    (hquiet : ∀ r ∈ d.inbox, r.reportsRemoval x = false) (fault : Option Error) (clock : Nat)
    (evs : List Event) (hf : evs.all (·.faultless) = true)
    (hb : (d.step (.message m fault clock)).bringsBack x evs = false) :
    x ∉ ((d.step (.message m fault clock)).run evs).engine.sessions.map (·.id) :=
  (gone_run (sound_step hd.sound _) (gone_of_delete hd.sound hdel hidle hx hquiet fault clock) hf
    hb).lacks.absent

/-- A fresh deck on a registry that holds two sessions, `k` and `x`. -/
def pairDeck : Deck :=
  start (Engine.new {} ⟨"/r/sessions.json", "test"⟩ Mux.memory GitLookup.inert 0)
    { sessions := [{ id := "k", title := "keep", projectPath := "/p/k", createdAt := World.epoch },
        { id := "x", title := "victim", projectPath := "/p/x", createdAt := World.epoch }],
      updatedAt := World.epoch } {}

/-- `x` is deleted; a reload reads the registry before the removal lands, and its answer is
taken in after the removal went: `x` stays out. -/
theorem deleted_session_survives_stale_read :
    "x" ∉ ((pairDeck.step (.message (.lifecycle (.deleted "x" false)) none 0)).run
      [.message .storageChanged none 0, .work 3 none, .work 1 none, .report 0 0,
        .report 0 0]).engine.sessions.map (·.id) :=
  deleted_session_stays_deleted
    ⟨{}, ⟨"/r/sessions.json", "test"⟩, Mux.memory, GitLookup.inert, 0, _, {}, [], rfl⟩
    (List.mem_singleton_self _) (by cbv) (by cbv; exact .tail _ (.head _))
    (fun _ hr => absurd hr List.not_mem_nil) none 0 _ rfl (by cbv)

/-- Without the proviso the session comes back: `x` is deleted, its removal lands, the delete is
undone and `x` deleted again while the report of the first removal waits. Taking that report in
clears the new guard, and a reload that reads the registry before the second removal lands
brings `x` back. -/
theorem revived_by_earlier_report :
    ∃ (d : Deck) (x : String) (m : Message) (evs : List Event), d.Reachable ∧ x ∈ m.deletes ∧
      d.engine.reloading = false ∧ x ∈ d.engine.sessions.map (·.id) ∧
      evs.all (·.faultless) = true ∧ (d.step (.message m none 0)).bringsBack x evs = false ∧
      x ∈ ((d.step (.message m none 0)).run evs).engine.sessions.map (·.id) :=
  ⟨pairDeck.run [.message (.lifecycle (.deleted "x" false)) none 0, .work 1 none,
      .message (.lifecycle .restored) none 0],
    "x", .lifecycle (.deleted "x" false),
    [.report 0 0, .message .storageChanged none 0, .work 7 none, .report 0 0],
    ⟨{}, ⟨"/r/sessions.json", "test"⟩, Mux.memory, GitLookup.inert, 0, _, {}, _, rfl⟩,
    List.mem_singleton_self _, by cbv, by cbv; exact .tail _ (.head _), rfl, by cbv,
    by cbv; exact .tail _ (.head _)⟩

/-- Nor may a registry access fail: the removal of `x` fails, taking its report in clears the
guard all the same, and a reload reads `x` back from the registry that still holds it. -/
theorem revived_after_failed_removal :
    ∃ (d : Deck) (x : String) (m : Message) (evs : List Event), d.Reachable ∧ x ∈ m.deletes ∧
      d.engine.reloading = false ∧ x ∈ d.engine.sessions.map (·.id) ∧
      (∀ r ∈ d.inbox, r.reportsRemoval x = false) ∧
      (d.step (.message m none 0)).bringsBack x evs = false ∧
      x ∈ ((d.step (.message m none 0)).run evs).engine.sessions.map (·.id) :=
  ⟨pairDeck, "x", .lifecycle (.deleted "x" false),
    [.work 1 (some (.io (.os .permissionDenied 13 "Permission denied"))), .report 0 0,
      .message .storageChanged none 0, .work 2 none, .report 0 0],
    ⟨{}, ⟨"/r/sessions.json", "test"⟩, Mux.memory, GitLookup.inert, 0, _, {}, [], rfl⟩,
    List.mem_singleton_self _, by cbv, by cbv; exact .tail _ (.head _),
    fun _ hr => absurd hr List.not_mem_nil, by cbv, by cbv; exact .tail _ (.head _)⟩

end Deck

end AgentDeck
