import AgentDeck.Proofs.Engine.Bookkeeping

/-!
The animations shown beside sessions that start, resume or fork, over every run of the engine.

An animation ends only for a reason (`animation_ends_only_for_a_reason`): a delete of its
session while the engine holds it and no reload runs, a hook report on the held session
(launching and resuming only), or a tick that finds the session gone or the animation run its
course for the session's own tool and latest preview (`Message.endsAnimation`). Each handler
gets one lemma on what it does to the animations; `react_keeps_animation` puts them together
for one message, and the run follows by induction on the inputs.

A session created while a reload runs is kept aside, out of the engine's sessions, until the
reload lands. A tick in between finds it gone, so its launching animation ends there
(`launch_lost_at_tick_during_reload`).
-/

namespace AgentDeck

namespace Animation

/-- Whether settling at `now` ends an animation of this kind that started at `start`, for a
session whose tool and latest preview are `r`, or for a session that is gone when `r` is
nothing. -/
def endsAt (k : Animation) (now start : Nat) (r : Option (Tool × Option String)) : Bool :=
  match k, r with
  | .forking, _ => forkMs ≤ now - start
  | _, none => true
  | .launching, some (tool, preview) =>
    launchFailsafeMs ≤ now - start || startupComplete tool preview (now - start)
  | .resuming, some (tool, preview) =>
    resumeFailsafeMs ≤ now - start || startupComplete tool preview (now - start)

end Animation

namespace Animations

/-- The start instants of the animations of one kind. -/
def table (a : Animations) : Animation → List (String × Nat)
  | .launching => a.launching
  | .resuming => a.resuming
  | .forking => a.forking

/-- An animation of kind `k` runs beside the session `id`. -/
def Runs (a : Animations) (k : Animation) (id : String) : Prop := ((a.table k).lookup id).isSome

variable {a : Animations} {k k' : Animation} {id id' : String} {now t : Nat}

theorem isSome_lookup_iff {l : List (String × Nat)} :
    (l.lookup id).isSome ↔ id ∈ l.map Prod.fst := by
  rw [List.lookup_isSome_iff, List.mem_map]
  constructor
  · rintro ⟨p, hp, h⟩
    exact ⟨p, hp, (beq_iff_eq.mp h).symm⟩
  · rintro ⟨p, hp, rfl⟩
    exact ⟨p, hp, beq_self_eq_true _⟩

theorem runs_iff : a.Runs k id ↔ id ∈ (a.table k).map Prod.fst := isSome_lookup_iff

theorem mem_keys_stamp (tbl : List (String × Nat)) :
    id ∈ (stamp tbl id' now).map Prod.fst ↔ id ∈ tbl.map Prod.fst ∨ id = id' := by
  unfold stamp
  split
  · next h =>
    -- the stamp of a present id changes its instant only
    have hkeys : (tbl.map fun p => if p.1 == id' then (id', now) else p).map Prod.fst =
        tbl.map Prod.fst := by
      rw [List.map_map]
      refine List.map_congr_left fun p _ => ?_
      by_cases hp : p.1 = id' <;> simp [hp]
    rw [hkeys]
    refine ⟨Or.inl, ?_⟩
    rintro (h' | rfl)
    · exact h'
    · exact isSome_lookup_iff.mp h
  · simp

theorem runs_start : (a.start k' id' now).Runs k id ↔ a.Runs k id ∨ (k = k' ∧ id = id') := by
  cases k <;> cases k' <;> simp [runs_iff, start, table, mem_keys_stamp]

theorem Runs.start (h : a.Runs k id) : (a.start k' id' now).Runs k id :=
  runs_start.mpr (.inl h)

theorem table_settle (lookup : String → Option (Tool × Option String)) :
    (a.settle now lookup).table k = (a.table k).filter fun p => !k.endsAt now p.2 (lookup p.1) := by
  cases k with
  | forking =>
    simp only [settle, table]
    congr 1
    funext p
    simp only [Animation.endsAt, ← decide_not, Nat.not_le]
  | launching | resuming =>
    simp only [settle, table]
    congr 1
    funext p
    cases lookup p.1 <;> rfl

/-- Settling keeps an animation that has not run its course. -/
theorem Runs.settle {lookup : String → Option (Tool × Option String)}
    (ht : (a.table k).lookup id = some t) (hlive : k.endsAt now t (lookup id) = false) :
    (a.settle now lookup).Runs k id := by
  obtain ⟨l₁, l₂, hl, -⟩ := List.lookup_eq_some_iff.mp ht
  have hmem : (id, t) ∈ a.table k := by simp [hl]
  rw [Runs, table_settle, isSome_lookup_iff, List.mem_map]
  exact ⟨(id, t), List.mem_filter.mpr ⟨hmem, by simp [hlive]⟩, rfl⟩

theorem runs_finishStartup :
    (a.finishStartup id').Runs k id ↔ a.Runs k id ∧ (k = .forking ∨ id ≠ id') := by
  cases k <;> simp [runs_iff, finishStartup, table, and_comm]

theorem runs_clear : (a.clear id').Runs k id ↔ a.Runs k id ∧ id ≠ id' := by
  cases k <;> simp [runs_iff, clear, finishStartup, table, and_comm]

theorem runs_retain {keep : String → Bool} : (a.retain keep).Runs k id ↔ a.Runs k id ∧ keep id := by
  cases k <;> simp [runs_iff, retain, table]

theorem isEmpty_eq_false (h : a.Runs k id) : a.isEmpty = false := by
  obtain ⟨p, hp, -⟩ := List.mem_map.mp (runs_iff.mp h)
  have hne : a.table k ≠ [] := List.ne_nil_of_mem hp
  cases k <;> simp_all [isEmpty, table]

@[simp] theorem table_advanceFrame : a.advanceFrame.table k = a.table k := by
  cases k <;> rfl

theorem runs_of_lookup (ht : (a.table k).lookup id = some t) : a.Runs k id := by
  simp [Runs, ht]

theorem not_runs_settle_of_gone {lookup : String → Option (Tool × Option String)}
    (hk : k ≠ .forking) (hgone : lookup id = none) : ¬ (a.settle now lookup).Runs k id := by
  rw [Runs, table_settle, isSome_lookup_iff, List.mem_map]
  rintro ⟨p, hp, rfl⟩
  have hend := (List.mem_filter.mp hp).2
  cases k with
  | forking => exact hk rfl
  | launching | resuming => simp [Animation.endsAt, hgone] at hend

end Animations

namespace Engine

variable (e : Engine)

/-! ### Steps that leave the animations alone -/

theorem animations_foldl {α : Type} {f : Engine → α → Engine}
    (hf : ∀ e a, (f e a).animations = e.animations) (l : List α) :
    (l.foldl f e).animations = e.animations := by
  induction l generalizing e with
  | nil => rfl
  | cons a l ih => rw [List.foldl_cons, ih, hf]

@[simp] theorem animations_spawn (j : Job) : (e.spawn j).animations = e.animations := rfl

@[simp] theorem animations_showBanner (text : String) :
    (e.showBanner text).animations = e.animations := rfl

@[simp] theorem animations_cacheSet (id : String) (f : Field) (v : CacheValue) :
    (e.cacheSet id f v).animations = e.animations := rfl

@[simp] theorem animations_cacheDrop (id : String) (f : Field) :
    (e.cacheDrop id f).animations = e.animations := rfl

@[simp] theorem animations_modifySession (id : String) (f : Session → Session) :
    (e.modifySession id f).animations = e.animations := rfl

@[simp] theorem animations_endFetch (id : String) (f : Field) :
    (e.endFetch id f).animations = e.animations := rfl

@[simp] theorem animations_scheduleSave : e.scheduleSave.animations = e.animations := by
  unfold scheduleSave
  split <;> rfl

@[simp] theorem animations_onNavigation : e.onNavigation.animations = e.animations := by
  unfold onNavigation
  dsimp only
  split <;> rfl

@[simp] theorem animations_beginFetch (id : String) (f : Field) :
    (e.beginFetch id f).1.animations = e.animations := by
  unfold beginFetch
  split
  · rfl
  · split <;> rfl

theorem ViewOf.animations_eq {e e' : Engine} (h : ViewOf e e') : e'.animations = e.animations := by
  obtain ⟨g, r, s, o, f, rfl⟩ := h
  rfl

@[simp] theorem animations_ensureVisible : (ensureVisible e).animations = e.animations :=
  (view_ensureVisible e).animations_eq

@[simp] theorem animations_rebuildView : e.rebuildView.animations = e.animations :=
  (view_rebuildView e).animations_eq

@[simp] theorem animations_insertSession (s : Session) :
    (e.insertSession s).animations = e.animations := by
  simp [insertSession]

@[simp] theorem animations_fetchPreview (id : String) :
    (e.fetchPreview id).animations = e.animations := by
  have h := animations_beginFetch e id .preview
  rcases hb : e.beginFetch id .preview with ⟨e₁, claimed⟩
  rw [hb] at h
  simp only [fetchPreview, hb]
  split
  · exact h
  · split <;> simpa using h

theorem animations_claim (id : String) (f : Field) (j : Job) :
    (if (e.beginFetch id f).2 = true then (e.beginFetch id f).1.spawn j
      else (e.beginFetch id f).1).animations = e.animations := by
  split <;> simp

@[simp] theorem animations_fetchSideData (id : String) :
    (e.fetchSideData id).animations = e.animations := by
  unfold fetchSideData
  split
  · rfl
  · dsimp only
    split
    · simp
    · simp only [animations_claim, animations_fetchPreview]

@[simp] theorem animations_onPreviewDebounce (id : String) :
    (e.onPreviewDebounce id).animations = e.animations := by
  unfold onPreviewDebounce
  split <;> simp

@[simp] theorem animations_onStatusUpdate (id : String) :
    (e.onStatusUpdate id).animations = e.animations := by
  unfold onStatusUpdate
  split <;> simp

@[simp] theorem animations_onPreviewCaptured (id : String) (r : Except Error (Option String)) :
    (e.onPreviewCaptured id r).animations = e.animations := by
  unfold onPreviewCaptured
  dsimp only
  split
  · rfl
  · split <;> simp

@[simp] theorem animations_onDirtyChecked (id : String) (r : Except Error Bool) :
    (e.onDirtyChecked id r).animations = e.animations := by
  unfold onDirtyChecked
  dsimp only
  split
  · rfl
  · split <;> simp

@[simp] theorem animations_onRemoteChecked (id : String) (r : Except Error String) :
    (e.onRemoteChecked id r).animations = e.animations := by
  unfold onRemoteChecked
  dsimp only
  split
  · rfl
  · split <;> simp

@[simp] theorem animations_onReviewFetched (id : String) (r : Except Error (Option Review)) :
    (e.onReviewFetched id r).animations = e.animations := by
  unfold onReviewFetched
  dsimp only
  split
  · rfl
  · split
    · simp
    · split
      · simp
      · split <;> simp

theorem animations_placeCursor? {e' : Engine} {c : Cursor} (h : e.placeCursor? c = some e') :
    e'.animations = e.animations :=
  (view_placeCursor? h).animations_eq

@[simp] theorem animations_moveCursor (delta : Int) :
    (e.moveCursor delta).animations = e.animations := by
  unfold moveCursor
  split <;> simp

@[simp] theorem animations_selectSession (id : String) :
    (e.selectSession id).1.animations = e.animations := by
  unfold selectSession
  split
  · next e' h => simp [animations_placeCursor? _ h]
  · split
    · rfl
    · dsimp only
      split
      · next e' h => simpa using animations_placeCursor? _ h
      · rfl

@[simp] theorem animations_selectGroup (path : String) :
    (e.selectGroup path).1.animations = e.animations := by
  unfold selectGroup
  split
  · next e' h => simp [animations_placeCursor? _ h]
  · rfl

@[simp] theorem animations_toggleGroup (path : String) :
    (e.toggleGroup path).animations = e.animations := by
  unfold toggleGroup
  split
  · rfl
  · dsimp only
    split
    · next e' h => simpa using animations_placeCursor? _ h
    · simp [(view_placeOrClamp _ _).animations_eq]

@[simp] theorem animations_renameSession (id title : String) :
    (e.renameSession id title).1.animations = e.animations := by
  unfold renameSession
  split
  · rfl
  · dsimp only
    split <;> simp [markActivity]

@[simp] theorem animations_call (c : Call) : (e.call c).animations = e.animations := by
  cases c <;> simp [call, setHeight]

@[simp] theorem animations_startReload : e.startReload.animations = e.animations := rfl

@[simp] theorem animations_noteStored (s : Session) (stored : Except Error Unit) :
    (e.noteStored s stored).animations = e.animations := by
  unfold noteStored
  split <;> rfl

@[simp] theorem animations_install (snap : Snapshot) (r : Restore) :
    (e.install snap r).1.animations = e.animations := by
  unfold install
  simp only
  rw [(view_applyRestore _ _).animations_eq]

theorem animations_foldl_insertKept (l : List Session) (acc : Engine × Bool) :
    (l.foldl insertKept acc).1.animations = acc.1.animations := by
  induction l generalizing acc with
  | nil => rfl
  | cons s l ih =>
    rw [List.foldl_cons, ih]
    unfold insertKept
    split <;> simp

@[simp] theorem animations_keepForceSaved : e.keepForceSaved.animations = e.animations := by
  unfold keepForceSaved
  dsimp only
  split <;> simp [animations_foldl_insertKept]

@[simp] theorem animations_finishReload (version : Nat) (result : Except Error Snapshot) :
    (e.finishReload version result).animations = e.animations := by
  by_cases hcur : version = e.reloadVersion ∧ e.reloading = true
  · cases result with
    | error err =>
      rw [finishReload_error hcur.1 hcur.2 err]
      dsimp only
      split <;> simp [dropLandedDeletes]
    | ok snap =>
      obtain ⟨r, h⟩ := finishReload_ok hcur.1 hcur.2 snap
      rw [h]
      dsimp only
      split <;> split <;> simp [dropLandedDeletes]
  · rw [finishReload_of_stale result hcur]

@[simp] theorem animations_onDeletesPersisted (ids : List String) (r : Except Error Unit) :
    (e.onDeletesPersisted ids r).animations = e.animations := by
  obtain ⟨banner, pd, h⟩ := onDeletesPersisted_eq (e := e) ids r
  rw [h]

@[simp] theorem animations_applyProbe (p : Probe) : (e.applyProbe p).animations = e.animations := by
  unfold applyProbe
  split
  · rfl
  · split
    · rfl
    · split <;> rfl

@[simp] theorem animations_onStatusesProbed (result : Except Error (List Probe)) :
    (e.onStatusesProbed result).animations = e.animations := by
  unfold onStatusesProbed
  dsimp only
  split
  · rw [animations_foldl _ animations_applyProbe]
  · rfl

/-! ### Settling on a tick -/

@[simp] theorem animations_persistViewState :
    e.persistViewState.animations = e.animations := by
  unfold persistViewState
  dsimp only
  split <;> rfl

@[simp] theorem animations_maintainLogs : e.maintainLogs.animations = e.animations := by
  unfold maintainLogs
  split
  · rfl
  · dsimp only
    split
    · rfl
    · split <;> rfl

@[simp] theorem animations_probeIfDue : e.probeIfDue.animations = e.animations := by
  unfold probeIfDue
  split
  · rfl
  · dsimp only
    split <;> rfl

variable {e} {k : Animation} {id : String} {t : Nat}

theorem runs_animate (ht : (e.animations.table k).lookup id = some t)
    (hlive : k.endsAt e.clock t (e.readiness id) = false) : e.animate.animations.Runs k id := by
  unfold animate
  split
  · exact Animations.runs_of_lookup ht
  · rw [animations_foldl _ animations_fetchPreview]
    exact Animations.Runs.settle (by rwa [Animations.table_advanceFrame]) hlive

theorem not_runs_animate (hk : k ≠ .forking) (hs : e.session? id = none) :
    ¬ e.animate.animations.Runs k id := by
  unfold animate
  split
  · next hempty =>
    intro hr
    rw [Animations.isEmpty_eq_false hr] at hempty
    cases hempty
  · rw [animations_foldl _ animations_fetchPreview]
    exact Animations.not_runs_settle_of_gone hk (by simp [readiness, hs])

end Engine

namespace Engine

variable {e e' e₁ : Engine} {k : Animation} {id : String} {t : Nat}

/-! ### The chores after settling -/

/-- A chore of the tick after the animations are settled: it keeps the ids of the sessions,
starts no animation, and ends none of a session the engine holds. -/
def Trims (e e' : Engine) : Prop :=
  e'.sessions.map (·.id) = e.sessions.map (·.id) ∧
    ∀ k id, (e'.animations.Runs k id → e.animations.Runs k id) ∧
      ((e.session? id).isSome → e.animations.Runs k id → e'.animations.Runs k id)

theorem session?_isSome_congr (hs : e'.sessions.map (·.id) = e.sessions.map (·.id)) (id : String) :
    (e'.session? id).isSome = (e.session? id).isSome := by
  rw [Bool.eq_iff_iff, session?_isSome_iff, session?_isSome_iff, hs]

namespace Trims

theorem refl (e : Engine) : Trims e e := ⟨rfl, fun _ _ => ⟨id, fun _ h => h⟩⟩

theorem trans (h₁ : Trims e e₁) (h₂ : Trims e₁ e') : Trims e e' := by
  refine ⟨h₂.1.trans h₁.1, fun k id => ⟨fun h => (h₁.2 k id).1 ((h₂.2 k id).1 h), fun hs h => ?_⟩⟩
  have hs₁ : (e₁.session? id).isSome := by rwa [session?_isSome_congr h₁.1]
  exact (h₂.2 k id).2 hs₁ ((h₁.2 k id).2 hs h)

/-- A chore that leaves the animations alone. -/
theorem of_quiet (hq : Quiet e e') (ha : e'.animations = e.animations) : Trims e e' :=
  ⟨hq.ids, fun _ _ => ⟨fun h => ha ▸ h, fun _ h => ha ▸ h⟩⟩

theorem ite_stage {x y : Engine} {c : Prop} [Decidable c] (hx : Trims e x) (hy : Trims x y) :
    Trims e (if c then y else x) := by
  split
  · exact hx.trans hy
  · exact hx

end Trims

theorem trims_prune (e : Engine) : Trims e e.prune := by
  refine ⟨(quiet_prune e).ids, fun k id => ⟨fun h => (Animations.runs_retain.mp h).1, fun hs h => ?_⟩⟩
  refine Animations.runs_retain.mpr ⟨h, ?_⟩
  obtain ⟨s, hmem, rfl⟩ := List.mem_map.mp ((session?_isSome_iff e id).mp hs)
  exact List.any_eq_true.mpr ⟨s, hmem, beq_self_eq_true _⟩

theorem trims_chores (e : Engine) : Trims { e with tickCount := e.tickCount + 1 }.animate e.chores := by
  unfold chores
  dsimp only
  -- the chores, peeled from the last one in
  refine Trims.ite_stage ?_ (trims_prune _)
  refine Trims.trans ?_ (.of_quiet (quiet_limits _ _) rfl)
  refine Trims.trans ?_ (.of_quiet (quiet_maintainLogs _) (animations_maintainLogs _))
  refine Trims.ite_stage ?_ (.of_quiet (quiet_persistViewState _) (animations_persistViewState _))
  refine Trims.ite_stage (Trims.refl _) (.of_quiet ?_ rfl)
  exact Quiet.of_eq rfl rfl rfl rfl rfl (Nat.le_refl _) rfl rfl

theorem animations_tick : e.tick.animations = e.chores.animations := by
  unfold tick
  dsimp only
  split
  · rfl
  · split
    · split <;> simp
    · simp

theorem runs_tick (ht : (e.animations.table k).lookup id = some t)
    (hlive : k.endsAt e.clock t (e.readiness id) = false) (hs : (e.session? id).isSome) :
    e.tick.animations.Runs k id := by
  have hs' : ({ e with tickCount := e.tickCount + 1 }.animate.session? id).isSome := by
    rwa [session?_isSome_congr (quiet_animate _).ids]
  rw [animations_tick]
  exact ((trims_chores e).2 k id).2 hs' (runs_animate ht hlive)

theorem not_runs_tick (hk : k ≠ .forking) (hs : e.session? id = none) :
    ¬ e.tick.animations.Runs k id := by
  rw [animations_tick]
  intro h
  exact not_runs_animate (e := { e with tickCount := e.tickCount + 1 }) hk hs
    (((trims_chores e).2 k id).1 h)

/-! ### Sessions coming and going -/

theorem ViewOf.clock_eq {e e' : Engine} (h : ViewOf e e') : e'.clock = e.clock := by
  obtain ⟨g, r, s, o, f, rfl⟩ := h
  rfl

@[simp] theorem clock_noteStored (s : Session) (stored : Except Error Unit) :
    (e.noteStored s stored).clock = e.clock := by
  unfold noteStored
  split <;> rfl

@[simp] theorem clock_insertSession (s : Session) : (e.insertSession s).clock = e.clock := by
  simp [insertSession, (view_rebuildView _).clock_eq]

theorem animations_addSession (s : Session) (anim : Animation) (stored : Except Error Unit) :
    (e.addSession s anim stored).animations = e.animations.start anim s.id e.clock := by
  unfold addSession
  dsimp only
  split <;> simp

theorem animations_restoreSession (s : Session) (stored : Except Error Unit) :
    (e.restoreSession s stored).animations = e.animations.start .resuming s.id e.clock := by
  simp [restoreSession, respawn]

theorem isSome_session?_of_dropSession {s : Session} (h : ((e.dropSession s).session? id).isSome) :
    (e.session? id).isSome := by
  rw [session?_isSome_iff] at h ⊢
  obtain ⟨x, hx, rfl⟩ := List.mem_map.mp h
  exact List.mem_map_of_mem (List.mem_filter.mp hx).1

theorem runs_foldl_dropFound (l : List String) (acc : Engine × List Session)
    (h : acc.1.animations.Runs k id) :
    (l.foldl dropFound acc).1.animations.Runs k id ∨ (id ∈ l ∧ (acc.1.session? id).isSome) := by
  induction l generalizing acc with
  | nil => exact .inl h
  | cons x l ih =>
    rw [List.foldl_cons]
    unfold dropFound
    split
    · next s hs =>
      by_cases hx : id = x
      · exact .inr ⟨hx ▸ List.mem_cons_self, by rw [hx, hs]; rfl⟩
      · -- another session goes: the animation stays, and on the rest the induction answers
        have hkeep : (acc.1.dropSession s).animations.Runs k id :=
          Animations.runs_clear.mpr ⟨h, by rwa [session?_id hs]⟩
        rcases ih (acc.1.dropSession s, acc.2 ++ [s]) hkeep with h' | ⟨hl, hheld⟩
        · exact .inl h'
        · exact .inr ⟨List.mem_cons_of_mem _ hl, isSome_session?_of_dropSession hheld⟩
    · rcases ih _ h with h' | ⟨hl, hheld⟩
      · exact .inl h'
      · exact .inr ⟨List.mem_cons_of_mem _ hl, hheld⟩

theorem animations_deleteSessions (ids : List String) (kill : Bool) :
    (e.deleteSessions ids kill).animations =
      if e.reloading then e.animations else (ids.foldl dropFound (e, [])).1.animations := by
  unfold deleteSessions
  split
  · rfl
  · dsimp only
    split
    · rfl
    · split <;> simp [persistDeletes]

theorem runs_deleteSessions (ids : List String) (kill : Bool) (h : e.animations.Runs k id) :
    (e.deleteSessions ids kill).animations.Runs k id ∨
      (id ∈ ids ∧ e.reloading = false ∧ (e.session? id).isSome) := by
  rw [animations_deleteSessions]
  cases hr : e.reloading
  · rcases runs_foldl_dropFound ids (e, []) h with h' | ⟨hl, hheld⟩
    · exact .inl (by simpa using h')
    · exact .inr ⟨hl, rfl, hheld⟩
  · exact .inl (by simpa using h)

theorem animations_onHookStatus (ev : HookEvent) :
    (e.onHookStatus ev).animations =
      if (e.session? ev.instanceId).isSome then e.animations.finishStartup ev.instanceId
      else e.animations := by
  unfold onHookStatus
  dsimp only
  rcases hs : e.session? ev.instanceId with _ | s
  · rfl
  · simp only [Option.isSome_some, if_true]
    split_ifs <;> simp

end Engine

/-- Whether handling `m` may end the animation of kind `k` of the session `id`, started at
`t`: `m` deletes `id` while the engine holds it and no reload runs, reports a hook on a held
`id` (launching and resuming only), or is a tick that finds `id` gone or the animation run
its course. -/
def Message.endsAnimation (e : Engine) (k : Animation) (id : String) (t : Nat) : Message → Bool
  | .lifecycle (.deleted id' _) => id' == id && !e.reloading && (e.session? id).isSome
  | .lifecycle (.bulkDeleted ids _) => ids.contains id && !e.reloading && (e.session? id).isSome
  | .hookStatus ev => ev.instanceId == id && k != .forking && (e.session? id).isSome
  | .tick => (e.session? id).isNone || k.endsAt e.clock t (e.readiness id)
  | _ => false

namespace Engine

variable {e : Engine} {k : Animation} {id : String} {t : Nat}

/-! ### One message, and a run -/

/-- **One message.** Handling a message keeps a running animation, unless the message is one
that may end it. -/
theorem react_keeps_animation (ht : (e.animations.table k).lookup id = some t) (m : Message)
    (stored : Except Error Unit) :
    (e.react m stored).animations.Runs k id ∨ m.endsAnimation e k id t = true := by
  have hr : e.animations.Runs k id := Animations.runs_of_lookup ht
  cases m
  case lifecycle ev =>
    cases ev with
    | created s => exact .inl (by simpa [react, animations_addSession] using hr.start)
    | forked s => exact .inl (by simpa [react, animations_addSession] using hr.start)
    | restored =>
      left
      simp only [react]
      split
      · rw [animations_restoreSession]
        exact hr.start
      · exact hr
    | deleted id' kill =>
      rcases runs_deleteSessions [id'] kill hr with h | ⟨hl, hre, hs⟩
      · exact .inl h
      · obtain rfl := List.mem_singleton.mp hl
        right
        simp [Message.endsAnimation, hre, hs]
    | bulkDeleted ids kill =>
      rcases runs_deleteSessions ids kill hr with h | ⟨hl, hre, hs⟩
      · exact .inl h
      · right
        simp [Message.endsAnimation, hl, hre, hs]
  case tick =>
    rcases hend : Message.endsAnimation e k id t .tick
    · -- the session is held and the animation has not run its course
      simp only [Message.endsAnimation, Bool.or_eq_false_iff, Option.isNone_eq_false_iff] at hend
      exact .inl (runs_tick ht hend.2 hend.1)
    · exact .inr rfl
  case hookStatus ev =>
    simp only [react, animations_onHookStatus]
    split
    · next hs =>
      by_cases hend : k = .forking ∨ id ≠ ev.instanceId
      · exact .inl (Animations.runs_finishStartup.mpr ⟨hr, hend⟩)
      · simp only [not_or, not_not] at hend
        obtain ⟨hk, rfl⟩ := hend
        right
        simp [Message.endsAnimation, hk, hs]
    · exact .inl hr
  -- every other message leaves the animations alone
  all_goals exact .inl (by simpa [react] using hr)

theorem take_keeps_animation (h : e.animations.Runs k id) (i : Input) :
    (e.take i).animations.Runs k id ∨
      ∃ m stored clock t, i = .message m stored clock ∧
        (e.animations.table k).lookup id = some t ∧
        m.endsAnimation { e with clock } k id t = true := by
  cases i with
  | call c clock => exact .inl (by simpa [take] using h)
  | message m stored clock =>
    obtain ⟨t, ht⟩ := Option.isSome_iff_exists.mp h
    rcases react_keeps_animation (e := { e with clock }) ht m stored with h' | hend
    · exact .inl h'
    · exact .inr ⟨m, stored, clock, t, rfl, ht, hend⟩

/-- **Animations end only for a reason.** Along any run of inputs, an animation that runs at
the start still runs at the end, or some message of the run found it running and may end it:
a delete of the session while the engine held it and no reload ran, a hook report on the held
session (launching and resuming only), or a tick that found the session gone, or the animation
run its course for the session's own tool and latest preview. -/
theorem animation_ends_only_for_a_reason (e : Engine) (ins : List Input)
    (h : e.animations.Runs k id) :
    (ins.foldl take e).animations.Runs k id ∨
      ∃ pre m stored clock post t, ins = pre ++ .message m stored clock :: post ∧
        ((pre.foldl take e).animations.table k).lookup id = some t ∧
        m.endsAnimation { pre.foldl take e with clock } k id t = true := by
  -- induction on the run, the engine it starts from generalised
  induction ins generalizing e with
  | nil => exact .inl h
  | cons i ins ih =>
    rcases take_keeps_animation h i with hs | ⟨m, stored, clock, t, rfl, ht, hend⟩
    · rcases ih (e.take i) hs with h' | ⟨pre, m, stored, clock, post, t, rfl, ht, hend⟩
      · exact .inl h'
      · exact .inr ⟨i :: pre, m, stored, clock, post, t, rfl, ht, hend⟩
    · exact .inr ⟨[], m, stored, clock, ins, t, rfl, ht, hend⟩

end Engine

/-- An engine started on an empty registry. -/
def freshEngine : Engine := Engine.new {} ⟨"/r/sessions.json", "test"⟩ Mux.memory GitLookup.inert 0

/-- A session the user creates. -/
def newSession : Session := { id := "x", title := "new", projectPath := "/p/x", createdAt := World.epoch }

/-- The engine after the registry changed on disk and `x` was created while the reload runs. -/
def launchingEngine : Engine :=
  (freshEngine.take (.message .storageChanged (.ok ()) 0)).take
    (.message (.lifecycle (.created newSession)) (.ok ()) 1)

theorem launchingEngine_runs : launchingEngine.animations.Runs .launching "x" := by
  simp only [launchingEngine, Engine.take, Engine.react, Engine.animations_addSession]
  exact Animations.runs_start.mpr (.inr ⟨rfl, rfl⟩)

/-- The launching animation of `x` created during a reload runs, and over the next tick it
still runs or that tick may end it. -/
theorem launch_runs_or_ends :
    launchingEngine.animations.Runs .launching "x" ∧
      (([Input.message .tick (.ok ()) 2].foldl Engine.take launchingEngine).animations.Runs
          .launching "x" ∨
        ∃ pre m stored clock post t,
          [Input.message .tick (.ok ()) 2] = pre ++ .message m stored clock :: post ∧
          ((pre.foldl Engine.take launchingEngine).animations.table .launching).lookup "x" =
            some t ∧
          m.endsAnimation { pre.foldl Engine.take launchingEngine with clock } .launching "x" t =
            true) :=
  ⟨launchingEngine_runs, Engine.animation_ends_only_for_a_reason _ _ launchingEngine_runs⟩

/-- A session created while a reload runs is not among the engine's sessions until the reload
lands, and so the next tick ends its launching animation. -/
theorem launch_lost_at_tick_during_reload :
    launchingEngine.animations.Runs .launching "x" ∧
      ¬ (launchingEngine.take (.message .tick (.ok ()) 2)).animations.Runs .launching "x" := by
  refine ⟨launchingEngine_runs, ?_⟩
  have hs : ({ launchingEngine with clock := 2 } : Engine).session? "x" = none := by decide
  exact Engine.not_runs_tick (by decide) hs

end AgentDeck
