import AgentDeck.Proofs.Engine.Owed

/-!
Tasks of removed sessions.

A delete takes sessions out of memory, marks the tasks linked to them orphaned, and queues their
removal from the registry, which marks the same tasks there when it lands. Only an undo marks
them back, and it brings the session back as well. So a removal queued for a session the engine
no longer holds finds the tasks linked to it marked in memory already (`Engine.OrphansMarked`),
and landing it changes nothing the engine holds. Every handler outside a reload keeps that
(`Engine.orphansMarked_take`): most hold the same sessions, keep the marks and queue no removal
(`Engine.Kept`), a delete marks what it removes, and an undo unmarks only the session it holds
again.
-/

namespace AgentDeck

/-- The sessions a job removes from the registry. -/
def Job.removals : Job → List String
  | .removeSessions ids => ids
  | _ => []

/-- Every task linked to the session `x` is marked orphaned. -/
def tasksOrphaned (tasks : List Task) (x : String) : Prop :=
  ∀ t ∈ tasks, t.sessionId = some x → t.orphaned = true

section Marks

variable {tasks : List Task} {x : String}

theorem tasksOrphaned_orphanTasks_self (tasks : List Task) (id : String) :
    tasksOrphaned (Engine.orphanTasks tasks id true) id := by
  unfold tasksOrphaned Engine.orphanTasks
  simp only [List.mem_map, forall_exists_index, and_imp, forall_apply_eq_imp_iff₂]
  intro u _
  split
  · exact fun _ => rfl
  · next hl =>
    -- a task not linked to `id` does not name it
    intro hu
    exact absurd (by simp [Task.isLinkedTo, hu]) hl

theorem tasksOrphaned_orphanTasks (h : tasksOrphaned tasks x) (id : String) {orphaned : Bool}
    (hx : orphaned = true ∨ x ≠ id) : tasksOrphaned (Engine.orphanTasks tasks id orphaned) x := by
  unfold tasksOrphaned Engine.orphanTasks
  simp only [List.mem_map, forall_exists_index, and_imp, forall_apply_eq_imp_iff₂]
  intro u hu
  split
  · next hl =>
    intro hux
    rcases hx with hx | hx
    · exact hx
    · -- the task is linked to `id`, so it does not name `x`
      have hid : u.sessionId = some id := by simpa [Task.isLinkedTo] using hl
      exact absurd (Option.some.inj (hux.symm.trans hid)) hx
  · exact h u hu

theorem tasksOrphaned_advanceTasks (h : tasksOrphaned tasks x) (id : String) (r : Review) :
    tasksOrphaned (Engine.advanceTasks tasks id r).1 x := by
  unfold tasksOrphaned Engine.advanceTasks
  simp only [List.mem_map, forall_exists_index, and_imp, forall_apply_eq_imp_iff₂]
  intro u hu
  split <;> exact h u hu

end Marks

namespace Engine

/-- Every removal queued for a session the engine no longer holds finds the tasks linked to it
marked orphaned. -/
def OrphansMarked (e : Engine) : Prop :=
  ∀ j ∈ e.jobs, ∀ x ∈ j.removals, x ∉ e.sessions.map (·.id) → tasksOrphaned e.tasks x

/-- `e'` holds every session `e` holds, keeps every mark of `e`'s tasks, and queues no new
removal. -/
structure Kept (e e' : Engine) : Prop where
  ids : ∀ x ∈ e.sessions.map (·.id), x ∈ e'.sessions.map (·.id)
  marks : ∀ x, tasksOrphaned e.tasks x → tasksOrphaned e'.tasks x
  removals : ∀ j ∈ e'.jobs, j.removals = [] ∨ j ∈ e.jobs

variable {e e₁ e' : Engine}

theorem Kept.trans (h₁ : Kept e e₁) (h₂ : Kept e₁ e') : Kept e e' :=
  ⟨fun x hx => h₂.ids x (h₁.ids x hx), fun x hx => h₂.marks x (h₁.marks x hx),
    fun j hj => (h₂.removals j hj).elim .inl fun hj₁ => h₁.removals j hj₁⟩

theorem OrphansMarked.kept (h : e.OrphansMarked) (hk : Kept e e') : e'.OrphansMarked := by
  intro j hj x hx hout
  rcases hk.removals j hj with hnil | hold
  · rw [hnil] at hx
    exact absurd hx List.not_mem_nil
  · exact hk.marks x (h j hold x hx fun hin => hout (hk.ids x hin))

/-- A still step holds the same sessions and tasks and queues no removal. -/
theorem Still.kept (h : Still e e') : Kept e e' := by
  obtain ⟨new, hj, hk⟩ := h.jobs
  refine ⟨fun x hx => (mem_ids_of_table h.table).mpr hx, fun x hx => by rw [h.tasks]; exact hx,
    fun j hmem => ?_⟩
  rw [hj] at hmem
  rcases List.mem_append.mp hmem with hmem | hmem
  · exact .inr hmem
  · have hk' := hk j hmem
    cases j <;> simp only [Job.Keeps] at hk' <;> exact .inl rfl

/-- A quiet step queues no removal. -/
theorem Quiet.removals (h : Quiet e e') : ∀ j ∈ e'.jobs, j.removals = [] ∨ j ∈ e.jobs := by
  obtain ⟨new, hj, hb⟩ := h.jobs
  intro j hmem
  rw [hj] at hmem
  rcases List.mem_append.mp hmem with hmem | hmem
  · exact .inr hmem
  · have hb' := hb j hmem
    cases j <;> simp only [Job.Benign] at hb' <;> exact .inl rfl

/-- A quiet step that keeps the marks of the tasks keeps everything a removal depends on. -/
theorem Quiet.kept (h : Quiet e e') (hm : ∀ x, tasksOrphaned e.tasks x → tasksOrphaned e'.tasks x) :
    Kept e e' :=
  ⟨fun _ hx => h.ids ▸ hx, hm, h.removals⟩

theorem Quiet.kept_of_tasks (h : Quiet e e') (ht : e'.tasks = e.tasks) : Kept e e' :=
  h.kept fun _ hx => by rw [ht]; exact hx

theorem kept_eraseIdx (e : Engine) (i : Nat) : Kept e { e with jobs := e.jobs.eraseIdx i } :=
  ⟨fun _ hx => hx, fun _ hx => hx, fun _ hj => .inr (List.mem_of_mem_eraseIdx hj)⟩

/-- With no removal queued, no marks are owed. -/
theorem orphansMarked_of_removals (h : ∀ j ∈ e.jobs, j.removals = []) : e.OrphansMarked :=
  fun j hj _ hx => absurd (h j hj ▸ hx) List.not_mem_nil

/-! ### The tasks the handlers leave -/

theorem still_noteStored (e : Engine) (s : Session) (stored : Except Error Unit) :
    Still e (e.noteStored s stored) := by
  unfold noteStored
  split
  · exact Still.refl e
  · exact still_showBanner _ _

theorem still_animations (e : Engine) (a : Animations) : Still e { e with animations := a } :=
  Still.of_eq rfl rfl rfl rfl rfl rfl

theorem insertSession_tasks (e : Engine) (s : Session) : (e.insertSession s).tasks = e.tasks :=
  (view_rebuildView _).still.tasks

theorem kept_insertSession (e : Engine) (s : Session) : Kept e (e.insertSession s) :=
  ⟨fun x hx => (mem_ids_insertSession e s x).mpr (.inl hx),
    fun x hx => by rw [insertSession_tasks]; exact hx,
    fun j hj => .inr ((frame_insertSession e s).jobs ▸ hj)⟩

theorem onStatusUpdate_tasks (e : Engine) (id : String) :
    (e.onStatusUpdate id).tasks = e.tasks := by
  unfold onStatusUpdate
  split
  · rfl
  · dsimp only
    exact (((still_cacheDrop _ _ _).trans (still_fetchPreview _ _)).trans (still_scheduleSave _)).tasks

theorem onHookStatus_tasks (e : Engine) (ev : HookEvent) : (e.onHookStatus ev).tasks = e.tasks := by
  unfold onHookStatus
  dsimp only
  rcases e.session? ev.instanceId with _ | s
  · rfl
  · dsimp only
    rw [(Still.ite (c := _ = true) (still_scheduleSave _) (Still.refl _)).tasks]
    rw [(Still.ite (c := _ = true) ((still_cacheDrop _ _ _).trans (still_fetchPreview _ _))
      (Still.refl _)).tasks]
    exact (still_hold _ _ _).tasks

theorem renameSession_tasks (e : Engine) (id title : String) :
    (e.renameSession id title).1.tasks = e.tasks := by
  unfold renameSession
  split
  · rfl
  · dsimp only
    rw [(still_markActivity _).tasks]
    split
    · exact (view_rebuildView _).still.tasks
    · rw [(still_scheduleSave _).tasks]
      exact (view_rebuildView _).still.tasks

theorem marks_onReviewFetched (e : Engine) (id : String) (result : Except Error (Option Review))
    {x : String} (hx : tasksOrphaned e.tasks x) :
    tasksOrphaned (e.onReviewFetched id result).tasks x := by
  unfold onReviewFetched
  dsimp only
  have hend := still_endFetch e id .reviewStatus
  have hset : ∀ v, Still e ((e.endFetch id .reviewStatus).cacheSet id .reviewStatus v) :=
    fun v => hend.trans (still_cacheSet _ id .reviewStatus v)
  split
  · rwa [hend.tasks]
  · split
    · rwa [(hend.trans (still_showBanner _ _)).tasks]
    · split
      · rwa [(hset _).tasks]
      · split
        · -- the tasks moved on keep their links and marks
          rw [(still_scheduleSave _).tasks]
          exact tasksOrphaned_advanceTasks (by rwa [(hset _).tasks]) id _
        · rwa [(hset _).tasks]

/-! ### Every handler outside a reload -/

theorem tasksOrphaned_foldl_dropFound (l : List String) (acc : Engine × List Session) {x : String}
    (hx : x ∉ (l.foldl dropFound acc).1.sessions.map (·.id))
    (h : x ∉ acc.1.sessions.map (·.id) → tasksOrphaned acc.1.tasks x) :
    tasksOrphaned (l.foldl dropFound acc).1.tasks x := by
  induction l generalizing acc with
  | nil => exact h hx
  | cons id l ih =>
    rw [List.foldl_cons] at hx ⊢
    refine ih _ hx fun hout => ?_
    unfold dropFound at hout ⊢
    split at hout
    · next t ht =>
      -- the session found is taken out and its tasks marked; the other marks stay
      show tasksOrphaned (orphanTasks acc.1.tasks t.id true) x
      by_cases hxt : x = t.id
      · rw [hxt]
        exact tasksOrphaned_orphanTasks_self _ _
      · have hold : x ∉ acc.1.sessions.map (·.id) := fun hin =>
          hout ((mem_ids_dropSession _ t x).mpr ⟨hin, hxt⟩)
        exact tasksOrphaned_orphanTasks (h hold) t.id (.inl rfl)
    · exact h hout

/-- A queued removal of ids that the engine no longer holds, with their tasks marked, keeps the
marks owed. -/
theorem OrphansMarked.persistDeletes (h : e.OrphansMarked) {ids : List String}
    (hids : ∀ x ∈ ids, x ∉ e.sessions.map (·.id) → tasksOrphaned e.tasks x) :
    (e.persistDeletes ids).OrphansMarked := by
  intro j hj x hx hout
  rw [persistDeletes_jobs] at hj
  rcases List.mem_append.mp hj with hj | hj
  · exact h j hj x hx hout
  · rw [List.mem_singleton.mp hj] at hx
    exact hids x hx hout

variable (hr : e.reloading = false) (h : e.OrphansMarked)
include hr h

theorem orphansMarked_deleteSessions (l : List String) (kill : Bool) :
    (e.deleteSessions l kill).OrphansMarked := by
  rw [deleteSessions_of_idle l kill hr]
  dsimp only
  split
  · next hnil =>
    rw [foldl_dropFound_of_nil l (e, []) (List.isEmpty_iff.mp hnil)]
    exact h
  · obtain ⟨rs, hrs, hmem⟩ := removed_foldl_dropFound l (e, [])
    have hjobs := (frame_foldl_dropFound l (e, [])).jobs
    -- the fold keeps the marks owed to the old removals
    have hfold : (l.foldl dropFound (e, [])).1.OrphansMarked := fun j hj x hx hout =>
      tasksOrphaned_foldl_dropFound l (e, []) hout (h j (hjobs ▸ hj) x hx)
    refine OrphansMarked.kept ?_ (Still.ite (still_spawn_inert _ rfl) (Still.refl _)).kept
    refine OrphansMarked.kept ?_ (still_scheduleSave _).kept
    refine (hfold.kept (view_rebuildView _).still.kept).persistDeletes fun x hx hout => ?_
    -- what was removed was held, so its tasks were marked by the fold
    rw [hrs, List.nil_append] at hx
    rw [(quiet_rebuildView _).ids] at hout
    rw [(view_rebuildView _).still.tasks]
    exact tasksOrphaned_foldl_dropFound l (e, []) hout fun hne => absurd ((hmem x).mp hx).1 hne

omit hr in
theorem orphansMarked_restoreSession (s : Session) (stored : Except Error Unit) :
    (e.restoreSession s stored).OrphansMarked := by
  rw [restoreSession_eq]
  dsimp only
  refine OrphansMarked.kept ?_ (still_respawn _ s).kept
  refine OrphansMarked.kept ?_ (still_scheduleSave _).kept
  refine OrphansMarked.kept ?_ (still_selectSession _ _).kept
  refine OrphansMarked.kept ?_ ((still_animations _ _).trans (still_cacheDrop _ _ _)).kept
  have h₁ := h.kept (still_noteStored e s stored).kept
  -- only the tasks of `s` are unmarked, and `s` is held again
  intro j hj x hx hout
  have hj₁ : j ∈ (e.noteStored s stored).jobs := by
    rw [(frame_insertSession _ s).jobs] at hj
    exact hj
  have hxs : x ∉ (e.noteStored s stored).sessions.map (·.id) ∧ x ≠ s.id := by
    rw [mem_ids_insertSession] at hout
    exact not_or.mp hout
  rw [insertSession_tasks]
  exact tasksOrphaned_orphanTasks (h₁ j hj₁ x hx hxs.1) s.id (.inr hxs.2)

omit h in
theorem kept_addSession (s : Session) (anim : Animation) (stored : Except Error Unit) :
    Kept e (e.addSession s anim stored) := by
  rw [addSession_of_idle s anim stored hr]
  refine Kept.trans ?_
    (((still_animations _ _).trans (still_selectSession _ _)).trans (still_scheduleSave _)).kept
  exact (still_noteStored e s stored).kept.trans (kept_insertSession _ s)

theorem orphansMarked_react {m : Message} (stored : Except Error Unit)
    (hm : m ≠ .storageChanged) : (e.react m stored).OrphansMarked := by
  cases m with
  | storageChanged => exact absurd rfl hm
  | lifecycle ev =>
    cases ev with
    | created s => exact h.kept (kept_addSession hr s .launching stored)
    | forked s => exact h.kept (kept_addSession hr s .forking stored)
    | deleted id kill => exact orphansMarked_deleteSessions hr h [id] kill
    | bulkDeleted ids kill => exact orphansMarked_deleteSessions hr h ids kill
    | restored =>
      rcases react_restored e stored with ⟨s, -, he⟩ | ⟨-, he⟩
      · rw [he]
        exact orphansMarked_restoreSession h s stored
      · rw [he]
        exact h
  | statusUpdate id =>
    exact h.kept ((quiet_onStatusUpdate e id).kept_of_tasks (onStatusUpdate_tasks e id))
  | tick => exact h.kept (still_tick e).kept
  | previewDebounce id => exact h.kept (still_onPreviewDebounce e id).kept
  | hookStatus ev => exact h.kept ((quiet_onHookStatus e ev).kept_of_tasks (onHookStatus_tasks e ev))
  | reloadLoaded v r =>
    show (e.finishReload v r).OrphansMarked
    rw [finishReload_of_stale r (by simp [hr])]
    exact h
  | previewCaptured id r => exact h.kept (still_onPreviewCaptured e id r).kept
  | dirtyChecked id r => exact h.kept (still_onDirtyChecked e id r).kept
  | remoteChecked id r => exact h.kept (still_onRemoteChecked e id r).kept
  | reviewFetched id r =>
    exact h.kept ((quiet_onReviewFetched e id r).kept fun x hx => marks_onReviewFetched e id r hx)
  | statusesProbed r => exact h.kept (still_onStatusesProbed e r).kept
  | deletesPersisted ids r => exact h.kept (still_onDeletesPersisted e ids r).kept
  | saveFailed text => exact h.kept (still_showBanner _ _).kept
  | failure text => exact h.kept (still_showBanner _ _).kept

omit hr in
theorem orphansMarked_call (c : Call) : (e.call c).OrphansMarked := by
  cases c with
  | rename id title =>
    exact h.kept ((quiet_renameSession e id title).kept_of_tasks (renameSession_tasks e id title))
  | moveCursor delta => exact h.kept (still_moveCursor e delta).kept
  | selectSession id => exact h.kept (still_selectSession e id).kept
  | selectGroup path => exact h.kept (still_selectGroup e path).kept
  | toggleGroup path => exact h.kept (still_toggleGroup e path).kept
  | setHeight height => exact h.kept (still_setHeight e height).kept

omit hr h in
/-- Outside a reload, every input but a storage change keeps the marks owed to the queued
removals. -/
theorem orphansMarked_take (hr : e.reloading = false) (h : e.OrphansMarked) {i : Input}
    (hi : ∀ stored clock, i ≠ .message .storageChanged stored clock) :
    (e.take i).OrphansMarked := by
  have hc : ∀ clock, ({ e with clock } : Engine).OrphansMarked := fun clock =>
    h.kept (still_clock e clock).kept
  cases i with
  | message m stored clock =>
    have hm : m ≠ .storageChanged := by
      rintro rfl
      exact hi stored clock rfl
    exact orphansMarked_react (e := { e with clock }) hr (hc clock) stored hm
  | call c clock => exact orphansMarked_call (e := { e with clock }) (hc clock) c

end Engine

end AgentDeck
