import AgentDeck.Engine.Deck

/-!
What the engine's steps do to the bookkeeping its background jobs depend on.

A deck's guarantees rest on a few of the engine's fields: which sessions it holds, the deleted
ids it guards, the sessions kept aside during a reload, the reload state, the save counter,
the undo list and the jobs it queues. Most steps leave all of these as they were and queue
only jobs that do not touch the registry, or saves of what the engine holds afterwards.
`Quiet` says so, and it composes, so each such step is proved quiet from the steps it is made
of.
-/

namespace AgentDeck

/-- A job a quiet step may queue in front of the engine `e`: one that does not touch the
registry, or a save of what `e` holds, scheduled under its reload version outside a reload. -/
def Job.Benign (e : Engine) : Job → Prop
  | .save version seq sessions _ _ =>
    version = e.reloadVersion ∧ seq ≤ e.saveSeq ∧ sessions.map (·.id) = e.sessions.map (·.id) ∧
      e.reloading = false
  | .load _ | .removeSessions _ => False
  | _ => True

namespace Engine

/-- `e'` keeps the bookkeeping of `e`: the same session ids, guards, sessions kept aside,
reload state and undo list, a save counter no lower, and only benign jobs queued after the
old ones. -/
structure Quiet (e e' : Engine) : Prop where
  ids : e'.sessions.map (·.id) = e.sessions.map (·.id)
  pendingDeletes : e'.pendingDeletes = e.pendingDeletes
  forceSaved : e'.forceSaved = e.forceSaved
  reloading : e'.reloading = e.reloading
  reloadVersion : e'.reloadVersion = e.reloadVersion
  saveSeq : e.saveSeq ≤ e'.saveSeq
  undo : e'.undo = e.undo
  jobs : ∃ new, e'.jobs = e.jobs ++ new ∧ ∀ j ∈ new, j.Benign e'

theorem benign_of_quiet {e e' : Engine} {j : Job} (hj : j.Benign e) (h : Quiet e e') :
    j.Benign e' := by
  cases j <;> simp only [Job.Benign] at hj ⊢
  case save =>
    obtain ⟨hv, hq, hs, hr⟩ := hj
    exact ⟨hv.trans h.reloadVersion.symm, Nat.le_trans hq h.saveSeq, hs.trans h.ids.symm,
      h.reloading.trans hr⟩

namespace Quiet

theorem refl (e : Engine) : Quiet e e :=
  ⟨rfl, rfl, rfl, rfl, rfl, Nat.le_refl _, rfl, ⟨[], by simp, by simp⟩⟩

theorem trans {e₁ e₂ e₃ : Engine} (h₁ : Quiet e₁ e₂) (h₂ : Quiet e₂ e₃) : Quiet e₁ e₃ := by
  obtain ⟨n₁, hj₁, hb₁⟩ := h₁.jobs
  obtain ⟨n₂, hj₂, hb₂⟩ := h₂.jobs
  refine ⟨h₂.ids.trans h₁.ids, h₂.pendingDeletes.trans h₁.pendingDeletes,
    h₂.forceSaved.trans h₁.forceSaved, h₂.reloading.trans h₁.reloading,
    h₂.reloadVersion.trans h₁.reloadVersion, Nat.le_trans h₁.saveSeq h₂.saveSeq,
    h₂.undo.trans h₁.undo, ⟨n₁ ++ n₂, by rw [hj₂, hj₁, List.append_assoc], ?_⟩⟩
  intro j hj
  rcases List.mem_append.mp hj with hj | hj
  · exact benign_of_quiet (hb₁ j hj) h₂
  · exact hb₂ j hj

/-- A change of fields the bookkeeping does not read is quiet. -/
theorem of_eq {e e' : Engine} (hs : e'.sessions = e.sessions)
    (hp : e'.pendingDeletes = e.pendingDeletes) (hf : e'.forceSaved = e.forceSaved)
    (hr : e'.reloading = e.reloading) (hv : e'.reloadVersion = e.reloadVersion)
    (hq : e.saveSeq ≤ e'.saveSeq) (hu : e'.undo = e.undo) (hj : e'.jobs = e.jobs) :
    Quiet e e' :=
  ⟨by rw [hs], hp, hf, hr, hv, hq, hu, ⟨[], by simp [hj], by simp⟩⟩

end Quiet

theorem quiet_spawn (e : Engine) {j : Job} (hj : j.Benign (e.spawn j)) : Quiet e (e.spawn j) :=
  ⟨rfl, rfl, rfl, rfl, rfl, Nat.le_refl _, rfl, ⟨[j], rfl, by simpa using hj⟩⟩

theorem quiet_scheduleSave (e : Engine) : Quiet e e.scheduleSave := by
  unfold scheduleSave
  split
  · exact Quiet.refl e
  · next hr =>
    have hseq : Quiet e { e with saveSeq := e.saveSeq + 1 } :=
      Quiet.of_eq rfl rfl rfl rfl rfl (Nat.le_succ _) rfl rfl
    exact hseq.trans (quiet_spawn _ ⟨rfl, Nat.le_refl _, rfl, Bool.eq_false_iff.mpr hr⟩)

theorem quiet_foldl {α : Type} {f : Engine → α → Engine} (hf : ∀ e a, Quiet e (f e a)) :
    ∀ (l : List α) (e : Engine), Quiet e (l.foldl f e)
  | [], e => Quiet.refl e
  | a :: l, e => (hf e a).trans (quiet_foldl hf l (f e a))

/-! ### Steps that touch neither sessions nor the reload state -/

theorem quiet_showBanner (e : Engine) (text : String) : Quiet e (e.showBanner text) :=
  Quiet.of_eq rfl rfl rfl rfl rfl (Nat.le_refl _) rfl rfl

theorem quiet_markActivity (e : Engine) : Quiet e e.markActivity :=
  Quiet.of_eq rfl rfl rfl rfl rfl (Nat.le_refl _) rfl rfl

theorem quiet_cacheSet (e : Engine) (id : String) (f : Field) (v : CacheValue) :
    Quiet e (e.cacheSet id f v) :=
  Quiet.of_eq rfl rfl rfl rfl rfl (Nat.le_refl _) rfl rfl

theorem quiet_cacheDrop (e : Engine) (id : String) (f : Field) : Quiet e (e.cacheDrop id f) :=
  Quiet.of_eq rfl rfl rfl rfl rfl (Nat.le_refl _) rfl rfl

theorem quiet_endFetch (e : Engine) (id : String) (f : Field) : Quiet e (e.endFetch id f) :=
  Quiet.of_eq rfl rfl rfl rfl rfl (Nat.le_refl _) rfl rfl

theorem quiet_beginFetch (e : Engine) (id : String) (f : Field) :
    Quiet e (e.beginFetch id f).1 := by
  unfold beginFetch
  split
  · exact Quiet.refl e
  · split
    · exact Quiet.refl e
    · exact Quiet.of_eq rfl rfl rfl rfl rfl (Nat.le_refl _) rfl rfl

theorem quiet_fetchPreview (e : Engine) (id : String) : Quiet e (e.fetchPreview id) := by
  rcases hb : e.beginFetch id .preview with ⟨e₁, claimed⟩
  have h₁ : Quiet e e₁ := by simpa [hb] using quiet_beginFetch e id .preview
  simp only [fetchPreview, hb]
  split
  · exact h₁
  · split
    · refine h₁.trans (quiet_spawn _ ?_)
      trivial
    · exact h₁.trans (quiet_endFetch _ _ _)

theorem quiet_fetchSideData (e : Engine) (id : String) : Quiet e (e.fetchSideData id) := by
  have hclaim : ∀ (e : Engine) (f : Field) (j : Job), (∀ e', j.Benign e') →
      Quiet e (if (e.beginFetch id f).2 then (e.beginFetch id f).1.spawn j
        else (e.beginFetch id f).1) := by
    intro e f j hj
    split
    · exact (quiet_beginFetch e id f).trans (quiet_spawn _ (hj _))
    · exact quiet_beginFetch e id f
  unfold fetchSideData
  split
  · exact Quiet.refl e
  · split
    · exact quiet_fetchPreview e id
    · refine (quiet_fetchPreview e id).trans ((hclaim _ _ _ fun _ => by trivial).trans
        ((hclaim _ _ _ fun _ => by trivial).trans (hclaim _ _ _ fun _ => by trivial)))

theorem quiet_onNavigation (e : Engine) : Quiet e e.onNavigation := by
  unfold onNavigation
  dsimp only
  split
  · refine Quiet.trans ?_ (quiet_spawn _ ?_)
    · exact Quiet.of_eq rfl rfl rfl rfl rfl (Nat.le_refl _) rfl rfl
    · trivial
  · exact Quiet.of_eq rfl rfl rfl rfl rfl (Nat.le_refl _) rfl rfl

/-! ### Steps on the view -/

/-- `e'` is `e` with only its view changed: the groups, the rows, the cursor and the scroll,
and perhaps a fault raised in scrolling. -/
def ViewOf (e e' : Engine) : Prop :=
  ∃ (groups : GroupTree) (rows : List Row) (selected offset : Nat) (fault : Option String),
    e' = { e with groups, rows, selected, offset, fault }

theorem ViewOf.refl (e : Engine) : ViewOf e e :=
  ⟨e.groups, e.rows, e.selected, e.offset, e.fault, rfl⟩

theorem ViewOf.trans {e e₁ e₂ : Engine} (h₁ : ViewOf e e₁) (h₂ : ViewOf e₁ e₂) : ViewOf e e₂ := by
  obtain ⟨g₁, r₁, s₁, o₁, f₁, rfl⟩ := h₁
  obtain ⟨g₂, r₂, s₂, o₂, f₂, rfl⟩ := h₂
  exact ⟨g₂, r₂, s₂, o₂, f₂, rfl⟩

theorem ViewOf.quiet {e e' : Engine} (h : ViewOf e e') : Quiet e e' := by
  obtain ⟨g, r, s, o, f, rfl⟩ := h
  exact Quiet.of_eq rfl rfl rfl rfl rfl (Nat.le_refl _) rfl rfl

theorem view_ensureVisible (e : Engine) : ViewOf e (ensureVisible e) := by
  unfold ensureVisible
  dsimp only
  split
  · exact ⟨_, _, _, _, _, rfl⟩
  · exact ⟨_, _, _, _, _, rfl⟩

theorem view_placeCursor? {e e' : Engine} {c : Cursor} (h : e.placeCursor? c = some e') :
    ViewOf e e' := by
  unfold placeCursor? at h
  obtain ⟨i, -, rfl⟩ := Option.map_eq_some_iff.mp h
  exact ViewOf.trans ⟨_, _, _, _, _, rfl⟩ (view_ensureVisible _)

theorem view_clampCursor (e : Engine) : ViewOf e e.clampCursor := by
  unfold clampCursor
  split
  · exact ViewOf.trans ⟨_, _, _, _, _, rfl⟩ (view_ensureVisible _)
  · exact view_ensureVisible e

theorem view_placeOrClamp (e : Engine) (c : Cursor) : ViewOf e (e.placeOrClamp c) := by
  unfold placeOrClamp
  cases h : e.placeCursor? c with
  | some e' => exact view_placeCursor? h
  | none => exact view_clampCursor e

theorem view_rebuildView (e : Engine) : ViewOf e e.rebuildView :=
  ViewOf.trans ⟨_, _, _, _, _, rfl⟩ (view_placeOrClamp _ _)

theorem quiet_ensureVisible (e : Engine) : Quiet e (ensureVisible e) :=
  (view_ensureVisible e).quiet

theorem quiet_placeCursor? {e e' : Engine} {c : Cursor} (h : e.placeCursor? c = some e') :
    Quiet e e' :=
  (view_placeCursor? h).quiet

theorem quiet_placeOrClamp (e : Engine) (c : Cursor) : Quiet e (e.placeOrClamp c) :=
  (view_placeOrClamp e c).quiet

theorem quiet_view (e : Engine) (groups : GroupTree) (rows : List Row) :
    Quiet e { e with groups, rows } :=
  ViewOf.quiet ⟨_, _, _, _, _, rfl⟩

theorem quiet_rebuildView (e : Engine) : Quiet e e.rebuildView :=
  (view_rebuildView e).quiet

/-- Changing the session with id `id` in a way that keeps its id is quiet. -/
theorem quiet_modifySession (e : Engine) (id : String) {f : Session → Session}
    (hf : ∀ s, s.id = id → (f s).id = s.id) : Quiet e (e.modifySession id f) := by
  refine ⟨?_, rfl, rfl, rfl, rfl, Nat.le_refl _, rfl, ⟨[], by simp [modifySession], by simp⟩⟩
  simp only [modifySession, List.map_map]
  congr 1
  funext s
  simp only [Function.comp]
  split
  · next h => exact hf s (beq_iff_eq.mp h)
  · rfl

theorem session?_id {e : Engine} {id : String} {s : Session} (h : e.session? id = some s) :
    s.id = id := by
  unfold session? at h
  have hp := List.find?_some h
  exact beq_iff_eq.mp hp

/-! ### Combinators for steps written as a pipeline -/

theorem Quiet.ite {e a b : Engine} {c : Prop} [Decidable c] (ha : Quiet e a) (hb : Quiet e b) :
    Quiet e (if c then a else b) := by
  split
  · exact ha
  · exact hb

/-- A stage done only when `c` holds is quiet if it is. -/
theorem Quiet.ite_stage {e x y : Engine} {c : Prop} [Decidable c] (hx : Quiet e x)
    (hy : Quiet x y) : Quiet e (if c then y else x) :=
  Quiet.ite (hx.trans hy) hx

/-! ### The fetch pipeline -/

theorem quiet_onPreviewDebounce (e : Engine) (id : String) :
    Quiet e (e.onPreviewDebounce id) := by
  unfold onPreviewDebounce
  split
  · exact Quiet.refl e
  · refine Quiet.trans ?_ (quiet_fetchSideData _ _)
    exact Quiet.of_eq rfl rfl rfl rfl rfl (Nat.le_refl _) rfl rfl

theorem quiet_onPreviewCaptured (e : Engine) (id : String)
    (result : Except Error (Option String)) : Quiet e (e.onPreviewCaptured id result) := by
  unfold onPreviewCaptured
  dsimp only
  refine (quiet_endFetch e id .preview).trans ?_
  split
  · exact Quiet.refl _
  · split
    · exact quiet_cacheSet _ _ _ _
    · exact quiet_cacheDrop _ _ _
    · exact Quiet.refl _

theorem quiet_onDirtyChecked (e : Engine) (id : String) (result : Except Error Bool) :
    Quiet e (e.onDirtyChecked id result) := by
  unfold onDirtyChecked
  dsimp only
  refine (quiet_endFetch e id .worktreeDirty).trans ?_
  split
  · exact Quiet.refl _
  · split
    · exact quiet_cacheSet _ _ _ _
    · exact quiet_showBanner _ _

theorem quiet_onRemoteChecked (e : Engine) (id : String) (result : Except Error String) :
    Quiet e (e.onRemoteChecked id result) := by
  unfold onRemoteChecked
  dsimp only
  refine (quiet_endFetch e id .worktreeRemote).trans ?_
  split
  · exact Quiet.refl _
  · split
    · exact quiet_cacheSet _ _ _ _
    · exact quiet_showBanner _ _

theorem quiet_onReviewFetched (e : Engine) (id : String) (result : Except Error (Option Review)) :
    Quiet e (e.onReviewFetched id result) := by
  unfold onReviewFetched
  dsimp only
  refine (quiet_endFetch e id .reviewStatus).trans ?_
  split
  · exact Quiet.refl _
  · split
    · exact quiet_showBanner _ _
    · split
      · exact quiet_cacheSet _ _ _ _
      · split
        · refine Quiet.trans ?_ (quiet_scheduleSave _)
          exact Quiet.of_eq rfl rfl rfl rfl rfl (Nat.le_refl _) rfl rfl
        · exact quiet_cacheSet _ _ _ _

theorem quiet_onStatusUpdate (e : Engine) (id : String) : Quiet e (e.onStatusUpdate id) := by
  unfold onStatusUpdate
  split
  · exact Quiet.refl e
  · dsimp only
    refine Quiet.trans ?_ (quiet_scheduleSave _)
    refine Quiet.trans ?_ (quiet_fetchPreview _ _)
    refine Quiet.trans ?_ (quiet_cacheDrop _ _ _)
    exact quiet_modifySession e id fun _ _ => rfl

/-! ### The tick -/

theorem quiet_animate (e : Engine) : Quiet e e.animate := by
  unfold animate
  split
  · exact Quiet.refl e
  · refine Quiet.trans ?_ (quiet_foldl quiet_fetchPreview _ _)
    exact Quiet.of_eq rfl rfl rfl rfl rfl (Nat.le_refl _) rfl rfl

theorem quiet_persistViewState (e : Engine) : Quiet e e.persistViewState := by
  unfold persistViewState
  dsimp only
  split
  · exact Quiet.refl e
  · refine Quiet.trans ?_ (quiet_spawn _ ?_)
    · exact Quiet.of_eq rfl rfl rfl rfl rfl (Nat.le_refl _) rfl rfl
    · trivial

theorem quiet_maintainLogs (e : Engine) : Quiet e e.maintainLogs := by
  unfold maintainLogs
  split
  · exact Quiet.refl e
  · dsimp only
    split
    · refine Quiet.trans ?_ (quiet_spawn _ ?_)
      · exact Quiet.of_eq rfl rfl rfl rfl rfl (Nat.le_refl _) rfl rfl
      · trivial
    · split
      · refine Quiet.trans ?_ (quiet_spawn _ ?_)
        · exact Quiet.of_eq rfl rfl rfl rfl rfl (Nat.le_refl _) rfl rfl
        · trivial
      · exact Quiet.of_eq rfl rfl rfl rfl rfl (Nat.le_refl _) rfl rfl

theorem quiet_prune (e : Engine) : Quiet e e.prune :=
  Quiet.of_eq rfl rfl rfl rfl rfl (Nat.le_refl _) rfl rfl

theorem quiet_spawnStatusProbe (e : Engine) : Quiet e e.spawnStatusProbe := by
  refine Quiet.trans ?_ (quiet_spawn _ ?_)
  · exact Quiet.of_eq rfl rfl rfl rfl rfl (Nat.le_refl _) rfl rfl
  · trivial

/-- Setting the rate limiters is quiet. -/
theorem quiet_limits (e : Engine) (l : TickLimits) : Quiet e { e with limits := l } :=
  Quiet.of_eq rfl rfl rfl rfl rfl (Nat.le_refl _) rfl rfl

theorem quiet_chores (e : Engine) : Quiet e e.chores := by
  unfold chores
  dsimp only
  -- the chores, peeled from the last one in
  refine Quiet.ite_stage ?_ ?hy
  case hy => exact quiet_prune _
  refine Quiet.trans ?_ (quiet_limits _ _)
  refine Quiet.trans ?_ (quiet_maintainLogs _)
  refine Quiet.ite_stage ?_ ?hy
  case hy => exact quiet_persistViewState _
  refine Quiet.ite_stage ?_ ?hy
  case hy => exact Quiet.of_eq rfl rfl rfl rfl rfl (Nat.le_refl _) rfl rfl
  refine Quiet.trans ?_ (quiet_animate _)
  exact Quiet.of_eq rfl rfl rfl rfl rfl (Nat.le_refl _) rfl rfl

theorem quiet_probeIfDue (e : Engine) : Quiet e e.probeIfDue := by
  unfold probeIfDue
  split
  · exact Quiet.refl e
  · dsimp only
    refine Quiet.ite_stage ?_ ?hy
    case hy => exact quiet_spawnStatusProbe _
    exact quiet_limits _ _

theorem quiet_tick (e : Engine) : Quiet e e.tick := by
  unfold tick
  dsimp only
  have hprobe := (quiet_chores e).trans (quiet_probeIfDue _)
  refine Quiet.ite ?_ ?_
  · exact quiet_chores e
  refine Quiet.ite ?_ hprobe
  split
  · exact hprobe.trans (quiet_fetchSideData _ _)
  · exact hprobe

/-! ### Reports on the panes -/

theorem quiet_applyProbe (e : Engine) (p : Probe) : Quiet e (e.applyProbe p) := by
  unfold applyProbe
  split
  · exact Quiet.refl e
  · split
    · exact Quiet.refl e
    · split
      · refine Quiet.trans ?_ (quiet_modifySession _ _ fun _ _ => rfl)
        exact Quiet.of_eq rfl rfl rfl rfl rfl (Nat.le_refl _) rfl rfl
      · refine Quiet.trans ?_ (quiet_modifySession _ _ fun _ _ => rfl)
        exact Quiet.of_eq rfl rfl rfl rfl rfl (Nat.le_refl _) rfl rfl

theorem quiet_onStatusesProbed (e : Engine) (result : Except Error (List Probe)) :
    Quiet e (e.onStatusesProbed result) := by
  unfold onStatusesProbed
  dsimp only
  have hflag : Quiet e { e with probeInFlight := false } :=
    Quiet.of_eq rfl rfl rfl rfl rfl (Nat.le_refl _) rfl rfl
  split
  · exact hflag.trans (quiet_foldl quiet_applyProbe _ _)
  · exact hflag

@[simp] theorem learnConversation_id (s : Session) (conv : String) :
    (learnConversation s conv).1.id = s.id := by
  unfold learnConversation
  split <;> (try split) <;> rfl

/-- Holding a session's hook status and moving its animation on is quiet. -/
theorem quiet_hold (e : Engine) (holds : List (String × Nat)) (anims : Animations) :
    Quiet e { e with hookHolds := holds, animations := anims } :=
  Quiet.of_eq rfl rfl rfl rfl rfl (Nat.le_refl _) rfl rfl

theorem quiet_onHookStatus (e : Engine) (ev : HookEvent) : Quiet e (e.onHookStatus ev) := by
  unfold onHookStatus
  dsimp only
  rcases hs : e.session? ev.instanceId with _ | s
  · exact Quiet.refl e
  · dsimp only
    refine Quiet.ite_stage ?_ ?hy
    case hy => exact quiet_scheduleSave _
    refine Quiet.ite_stage ?_ ?hy
    case hy => exact (quiet_cacheDrop _ _ _).trans (quiet_fetchPreview _ _)
    refine Quiet.trans ?_ (quiet_hold _ _ _)
    refine quiet_modifySession _ _ fun t ht => ?_
    -- the new record is the old one's, with its status and conversation changed
    rw [ht, ← session?_id hs]
    split <;> simp
/-! ### Calls on the view -/

theorem quiet_moveCursor (e : Engine) (delta : Int) : Quiet e (e.moveCursor delta) := by
  unfold moveCursor
  split
  · exact Quiet.refl e
  · dsimp only
    refine Quiet.trans ?_ (quiet_onNavigation _)
    refine Quiet.trans ?_ (quiet_ensureVisible _)
    exact Quiet.of_eq rfl rfl rfl rfl rfl (Nat.le_refl _) rfl rfl

theorem quiet_selectSession (e : Engine) (id : String) : Quiet e (e.selectSession id).1 := by
  unfold selectSession
  split
  · next e' h => exact (quiet_placeCursor? h).trans (quiet_onNavigation _)
  · split
    · exact Quiet.refl e
    · next s _ =>
      dsimp only
      have hview := quiet_view e (e.groups.expandTo s.groupPath)
        (buildRows e.sessions (e.groups.expandTo s.groupPath))
      split
      · next e' h =>
        exact hview.trans ((quiet_placeCursor? h).trans
          ((quiet_scheduleSave _).trans (quiet_onNavigation _)))
      · exact hview

theorem quiet_selectGroup (e : Engine) (path : String) : Quiet e (e.selectGroup path).1 := by
  unfold selectGroup
  split
  · next e' h => exact (quiet_placeCursor? h).trans (quiet_onNavigation _)
  · exact Quiet.refl e

theorem quiet_toggleGroup (e : Engine) (path : String) : Quiet e (e.toggleGroup path) := by
  unfold toggleGroup
  split
  · exact Quiet.refl e
  · dsimp only
    refine Quiet.trans ?_ (quiet_onNavigation _)
    refine Quiet.trans ?_ (quiet_scheduleSave _)
    have hview := quiet_view e (e.groups.toggle path) (buildRows e.sessions (e.groups.toggle path))
    split
    · next e' h => exact hview.trans (quiet_placeCursor? h)
    · exact hview.trans (quiet_placeOrClamp _ _)

theorem quiet_setHeight (e : Engine) (height : Nat) : Quiet e (e.setHeight height) := by
  refine Quiet.trans ?_ (quiet_ensureVisible _)
  exact Quiet.of_eq rfl rfl rfl rfl rfl (Nat.le_refl _) rfl rfl

theorem quiet_renameSession (e : Engine) (id title : String) :
    Quiet e (e.renameSession id title).1 := by
  unfold renameSession
  split
  · exact Quiet.refl e
  · dsimp only
    refine Quiet.trans ?_ (quiet_markActivity _)
    have hrename : Quiet e (e.modifySession id fun s => { s with title }).rebuildView := by
      refine Quiet.trans ?_ (quiet_rebuildView _)
      exact quiet_modifySession e id fun _ _ => rfl
    refine Quiet.ite ?_ (hrename.trans (quiet_scheduleSave _))
    exact hrename.trans (Quiet.of_eq rfl rfl rfl rfl rfl (Nat.le_refl _) rfl rfl)

/-- Every call on the view is quiet. -/
theorem quiet_call (e : Engine) (c : Call) : Quiet e (e.call c) := by
  cases c with
  | moveCursor delta => exact quiet_moveCursor e delta
  | selectSession id => exact quiet_selectSession e id
  | selectGroup path => exact quiet_selectGroup e path
  | toggleGroup path => exact quiet_toggleGroup e path
  | setHeight height => exact quiet_setHeight e height
  | rename id title => exact quiet_renameSession e id title

end Engine

end AgentDeck
