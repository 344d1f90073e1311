import Mathlib
import AgentDeck.Proofs.Engine.Bookkeeping
import AgentDeck.Proofs.Group.Rows

/-!
What the handlers leave of the view.

The view reads of the engine the sessions' ids, titles and group paths, the groups, the rows,
the cursor, the scroll position and the height (`Engine.shown`). Most handlers leave all of it as
it was (`Keeps`): they queue jobs, fill the cache, claim fetches, change sessions' statuses and
stamps. The few that change the view rebuild it or move the cursor, and the invariants of the
view are proved for those one by one.
-/

namespace AgentDeck

/-- What the view reads of the engine. -/
structure Shown where
  keys : List (String × String × String)
  groups : GroupTree
  rows : List Row
  selected : Nat
  offset : Nat
  height : Nat

namespace Engine

/-- What the view reads of `e`: its sessions as the rows read them, its groups, rows, cursor,
scroll position and height. -/
def shown (e : Engine) : Shown :=
  ⟨e.sessions.map Session.viewKey, e.groups, e.rows, e.selected, e.offset, e.height⟩

/-- `e'` shows what `e` shows. -/
def Keeps (e e' : Engine) : Prop := e'.shown = e.shown

variable {e e₁ e' : Engine}

namespace Keeps

theorem refl (e : Engine) : Keeps e e := rfl

theorem trans (h₁ : Keeps e e₁) (h₂ : Keeps e₁ e') : Keeps e e' := Eq.trans h₂ h₁

theorem keys (h : Keeps e e') : e'.sessions.map Session.viewKey = e.sessions.map Session.viewKey :=
  congrArg Shown.keys h

theorem groups (h : Keeps e e') : e'.groups = e.groups := congrArg Shown.groups h

theorem rows (h : Keeps e e') : e'.rows = e.rows := congrArg Shown.rows h

theorem selected (h : Keeps e e') : e'.selected = e.selected := congrArg Shown.selected h

theorem offset (h : Keeps e e') : e'.offset = e.offset := congrArg Shown.offset h

theorem height (h : Keeps e e') : e'.height = e.height := congrArg Shown.height h

theorem cursor (h : Keeps e e') : e'.cursor = e.cursor := by
  unfold Engine.cursor selectedRow?
  rw [h.rows, h.selected]

theorem ids (h : Keeps e e') : e'.sessions.map (·.id) = e.sessions.map (·.id) := by
  have hk := congrArg (List.map Prod.fst) h.keys
  simpa [List.map_map, Function.comp_def, Session.viewKey] using hk

theorem ite {a b : Engine} {c : Prop} [Decidable c] (ha : Keeps e a) (hb : Keeps e b) :
    Keeps e (if c then a else b) := by
  split
  · exact ha
  · exact hb

/-- A stage done only when `c` holds keeps the view if it does. -/
theorem ite_stage {x y : Engine} {c : Prop} [Decidable c] (hx : Keeps e x) (hy : Keeps x y) :
    Keeps e (if c then y else x) :=
  Keeps.ite (hx.trans hy) hx

end Keeps

theorem keeps_of_eq (hs : e'.sessions = e.sessions) (hg : e'.groups = e.groups)
    (hr : e'.rows = e.rows) (hsel : e'.selected = e.selected) (ho : e'.offset = e.offset)
    (hh : e'.height = e.height) : Keeps e e' := by
  unfold Keeps shown
  rw [hs, hg, hr, hsel, ho, hh]

theorem keeps_spawn (e : Engine) (j : Job) : Keeps e (e.spawn j) := rfl

theorem keeps_foldl {α : Type} {f : Engine → α → Engine} (hf : ∀ e a, Keeps e (f e a)) :
    ∀ (l : List α) (e : Engine), Keeps e (l.foldl f e)
  | [], e => Keeps.refl e
  | a :: l, e => (hf e a).trans (keeps_foldl hf l (f e a))

theorem keeps_scheduleSave (e : Engine) : Keeps e e.scheduleSave := by
  unfold scheduleSave
  split
  · exact Keeps.refl e
  · rfl

theorem keeps_showBanner (e : Engine) (text : String) : Keeps e (e.showBanner text) := rfl

theorem keeps_markActivity (e : Engine) : Keeps e e.markActivity := rfl

theorem keeps_cacheSet (e : Engine) (id : String) (f : Field) (v : CacheValue) :
    Keeps e (e.cacheSet id f v) := rfl

theorem keeps_cacheDrop (e : Engine) (id : String) (f : Field) : Keeps e (e.cacheDrop id f) := rfl

theorem keeps_endFetch (e : Engine) (id : String) (f : Field) : Keeps e (e.endFetch id f) := rfl

theorem keeps_beginFetch (e : Engine) (id : String) (f : Field) : Keeps e (e.beginFetch id f).1 := by
  unfold beginFetch
  split
  · rfl
  · split <;> rfl

theorem keeps_fetchPreview (e : Engine) (id : String) : Keeps e (e.fetchPreview id) := by
  unfold fetchPreview
  have hb := keeps_beginFetch e id .preview
  rcases hc : e.beginFetch id .preview with ⟨e₁, claimed⟩
  rw [hc] at hb
  dsimp only
  split
  · exact hb
  · split
    · exact hb.trans (keeps_spawn _ _)
    · exact hb.trans (keeps_endFetch _ _ _)

theorem keeps_claim (e : Engine) (id : String) (f : Field) (j : Job) :
    Keeps e (if (e.beginFetch id f).2 then (e.beginFetch id f).1.spawn j
      else (e.beginFetch id f).1) :=
  Keeps.ite ((keeps_beginFetch e id f).trans (keeps_spawn _ _)) (keeps_beginFetch e id f)

theorem keeps_fetchSideData (e : Engine) (id : String) : Keeps e (e.fetchSideData id) := by
  unfold fetchSideData
  split
  · exact Keeps.refl e
  · split
    · exact keeps_fetchPreview e id
    · refine (keeps_fetchPreview e id).trans ((keeps_claim _ _ _ _).trans
        ((keeps_claim _ _ _ _).trans (keeps_claim _ _ _ _)))

theorem keeps_onNavigation (e : Engine) : Keeps e e.onNavigation := by
  unfold onNavigation
  dsimp only
  split <;> rfl

theorem keeps_modifySession (e : Engine) (id : String) {f : Session → Session}
    (hf : ∀ s ∈ e.sessions, s.id = id → (f s).viewKey = s.viewKey) :
    Keeps e (e.modifySession id f) := by
  unfold Keeps shown modifySession
  simp only [List.map_map, Shown.mk.injEq, and_true]
  apply List.map_congr_left
  intro s hs
  simp only [Function.comp]
  split
  · next h => exact hf s hs (beq_iff_eq.mp h)
  · rfl

/-- With no two sessions sharing an id, the session found under an id is the only one. -/
theorem eq_of_session? (hn : (e.sessions.map (·.id)).Nodup) {id : String} {s t : Session}
    (hs : e.session? id = some s) (ht : t ∈ e.sessions) (hid : t.id = id) : t = s := by
  have hmem : s ∈ e.sessions := List.mem_of_find?_eq_some hs
  exact List.inj_on_of_nodup_map hn ht hmem (hid.trans (session?_id hs).symm)

/-! ### Handlers that keep the view -/

theorem keeps_onPreviewDebounce (e : Engine) (id : String) : Keeps e (e.onPreviewDebounce id) := by
  unfold onPreviewDebounce
  split
  · exact Keeps.refl e
  · exact (keeps_of_eq rfl rfl rfl rfl rfl rfl).trans (keeps_fetchSideData _ _)

theorem keeps_onStatusUpdate (e : Engine) (id : String) : Keeps e (e.onStatusUpdate id) := by
  unfold onStatusUpdate
  split
  · exact Keeps.refl e
  · refine Keeps.trans ?_ ((keeps_cacheDrop _ _ _).trans
      ((keeps_fetchPreview _ _).trans (keeps_scheduleSave _)))
    exact keeps_modifySession _ _ fun _ _ _ => rfl

theorem keeps_onPreviewCaptured (e : Engine) (id : String) (result : Except Error (Option String)) :
    Keeps e (e.onPreviewCaptured id result) := by
  unfold onPreviewCaptured
  dsimp only
  refine (keeps_endFetch e id .preview).trans ?_
  split
  · exact Keeps.refl _
  · split
    · exact keeps_cacheSet _ _ _ _
    · exact keeps_cacheDrop _ _ _
    · exact Keeps.refl _

theorem keeps_onDirtyChecked (e : Engine) (id : String) (result : Except Error Bool) :
    Keeps e (e.onDirtyChecked id result) := by
  unfold onDirtyChecked
  dsimp only
  refine (keeps_endFetch e id .worktreeDirty).trans ?_
  split
  · exact Keeps.refl _
  · split
    · exact keeps_cacheSet _ _ _ _
    · exact keeps_showBanner _ _

theorem keeps_onRemoteChecked (e : Engine) (id : String) (result : Except Error String) :
    Keeps e (e.onRemoteChecked id result) := by
  unfold onRemoteChecked
  dsimp only
  refine (keeps_endFetch e id .worktreeRemote).trans ?_
  split
  · exact Keeps.refl _
  · split
    · exact keeps_cacheSet _ _ _ _
    · exact keeps_showBanner _ _

theorem keeps_onReviewFetched (e : Engine) (id : String) (result : Except Error (Option Review)) :
    Keeps e (e.onReviewFetched id result) := by
  unfold onReviewFetched
  dsimp only
  refine (keeps_endFetch e id .reviewStatus).trans ?_
  split
  · exact Keeps.refl _
  · split
    · exact keeps_showBanner _ _
    · split
      · exact keeps_cacheSet _ _ _ _
      · split
        · refine Keeps.trans ?_ (keeps_scheduleSave _)
          rfl
        · exact keeps_cacheSet _ _ _ _

theorem keeps_animate (e : Engine) : Keeps e e.animate := by
  unfold animate
  split
  · exact Keeps.refl e
  · exact keeps_foldl keeps_fetchPreview _ _

theorem keeps_persistViewState (e : Engine) : Keeps e e.persistViewState := by
  unfold persistViewState
  dsimp only
  split
  · exact Keeps.refl e
  · rfl

theorem keeps_maintainLogs (e : Engine) : Keeps e e.maintainLogs := by
  unfold maintainLogs
  split
  · exact Keeps.refl e
  · dsimp only
    split
    · rfl
    · split <;> rfl

theorem keeps_prune (e : Engine) : Keeps e e.prune := rfl

theorem keeps_limits (e : Engine) (l : TickLimits) : Keeps e { e with limits := l } := rfl

theorem keeps_chores (e : Engine) : Keeps e e.chores := by
  unfold chores
  dsimp only
  -- the chores, peeled from the last one in
  refine Keeps.ite_stage ?_ (keeps_prune _)
  refine Keeps.trans ?_ (keeps_limits _ _)
  refine Keeps.trans ?_ (keeps_maintainLogs _)
  refine Keeps.ite_stage ?_ (keeps_persistViewState _)
  refine Keeps.ite_stage ?_ (keeps_of_eq rfl rfl rfl rfl rfl rfl)
  exact (keeps_of_eq rfl rfl rfl rfl rfl rfl).trans (keeps_animate _)

theorem keeps_probeIfDue (e : Engine) : Keeps e e.probeIfDue := by
  unfold probeIfDue
  split
  · exact Keeps.refl e
  · dsimp only
    exact Keeps.ite_stage (keeps_limits _ _) rfl

theorem keeps_fetchSelected (e : Engine) :
    Keeps e (match e.selectedId? with
      | some id => e.fetchSideData id
      | none => e) := by
  split
  · exact keeps_fetchSideData _ _
  · exact Keeps.refl e

theorem keeps_tick (e : Engine) : Keeps e e.tick := by
  unfold tick
  dsimp only
  have hprobe := (keeps_chores e).trans (keeps_probeIfDue _)
  refine Keeps.ite (keeps_chores e) ?_
  exact Keeps.ite (hprobe.trans (keeps_fetchSelected _)) hprobe

theorem keeps_applyProbe (e : Engine) (p : Probe) : Keeps e (e.applyProbe p) := by
  unfold applyProbe
  split
  · exact Keeps.refl e
  · split
    · exact Keeps.refl e
    · split
      · exact (keeps_of_eq rfl rfl rfl rfl rfl rfl).trans
          (keeps_modifySession _ _ fun _ _ _ => rfl)
      · exact (keeps_of_eq rfl rfl rfl rfl rfl rfl).trans
          (keeps_modifySession _ _ fun _ _ _ => rfl)

theorem keeps_onStatusesProbed (e : Engine) (result : Except Error (List Probe)) :
    Keeps e (e.onStatusesProbed result) := by
  unfold onStatusesProbed
  dsimp only
  split
  · exact (keeps_of_eq rfl rfl rfl rfl rfl rfl).trans (keeps_foldl keeps_applyProbe _ _)
  · exact keeps_of_eq rfl rfl rfl rfl rfl rfl

@[simp] theorem learnConversation_viewKey (s : Session) (conv : String) :
    (learnConversation s conv).1.viewKey = s.viewKey := by
  unfold learnConversation
  split <;> (try split) <;> rfl

/-- A hook report changes the status and conversation of the one session with its id. -/
theorem keeps_onHookStatus (e : Engine) (ev : HookEvent) (hn : (e.sessions.map (·.id)).Nodup) :
    Keeps e (e.onHookStatus ev) := by
  unfold onHookStatus
  dsimp only
  rcases hs : e.session? ev.instanceId with _ | s
  · exact Keeps.refl e
  · dsimp only
    refine Keeps.ite_stage ?_ (keeps_scheduleSave _)
    refine Keeps.ite_stage ?_ ((keeps_cacheDrop _ _ _).trans (keeps_fetchPreview _ _))
    refine Keeps.trans ?_ (keeps_of_eq rfl rfl rfl rfl rfl rfl)
    refine keeps_modifySession _ _ fun t ht hid => ?_
    rw [eq_of_session? hn hs ht hid]
    split
    · rw [learnConversation_viewKey]
      rfl
    · rfl

theorem keeps_startReload (e : Engine) : Keeps e e.startReload := rfl

theorem keeps_noteStored (e : Engine) (s : Session) (stored : Except Error Unit) :
    Keeps e (e.noteStored s stored) := by
  unfold noteStored
  split
  · exact Keeps.refl e
  · exact keeps_showBanner _ _

theorem keeps_persistDeletes (e : Engine) (ids : List String) : Keeps e (e.persistDeletes ids) :=
  rfl

theorem keeps_onDeletesPersisted (e : Engine) (ids : List String) (result : Except Error Unit) :
    Keeps e (e.onDeletesPersisted ids result) := by
  obtain ⟨banner, pd, h⟩ := onDeletesPersisted_eq (e := e) ids result
  rw [h]
  rfl

theorem keeps_respawn (e : Engine) (s : Session) : Keeps e (e.respawn s) := rfl

end Engine

end AgentDeck
