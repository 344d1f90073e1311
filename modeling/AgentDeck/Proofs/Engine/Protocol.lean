import Mathlib
import AgentDeck.Proofs.Engine.Layout
import AgentDeck.Proofs.Deck.Sound

/-!
The reload protocol.

A storage change starts a reload under a new version; the load it queues answers under that
version, and only the answer of the reload that runs is taken in, which ends the reload. While
a reload runs the engine notes down what it must lay over the answer: the view when the reload
started, the titles renamed since and the sessions created since, and which guarded deletes
were stored meanwhile. Every way a reload ends clears all of it, so outside a reload nothing is
noted (`Settled`). During a reload deletes and undos are refused, and a new session is stored
at once but kept aside.

Main statement: `reload_protocol`, for every run from boot: the version counts the storage
changes, a reload runs exactly when a storage change came after the last answer taken in, a
stale or duplicated answer changes nothing, nothing is noted outside a reload, and deletes,
undos and new sessions are handled during a reload as said above.
-/

namespace AgentDeck

namespace Engine

/-- What a running reload notes down to lay over its answer: the view captured when it
started and the titles renamed since. -/
def notes (e : Engine) : Option Restore × List (String × String) := (e.restore, e.pendingTitles)

/-- `e'` holds the notes of `e`. -/
def KeepsNotes (e e' : Engine) : Prop := e'.notes = e.notes

variable {e e₁ e' : Engine}

namespace KeepsNotes

theorem refl (e : Engine) : KeepsNotes e e := rfl

theorem trans (h₁ : KeepsNotes e e₁) (h₂ : KeepsNotes e₁ e') : KeepsNotes e e' :=
  Eq.trans h₂ h₁

theorem restore (h : KeepsNotes e e') : e'.restore = e.restore := congrArg Prod.fst h

theorem pendingTitles (h : KeepsNotes e e') : e'.pendingTitles = e.pendingTitles :=
  congrArg Prod.snd h

theorem ite {a b : Engine} {c : Prop} [Decidable c] (ha : KeepsNotes e a) (hb : KeepsNotes e b) :
    KeepsNotes e (if c then a else b) := by
  split
  · exact ha
  · exact hb

/-- A stage done only when `c` holds keeps the notes if it does. -/
theorem ite_stage {x y : Engine} {c : Prop} [Decidable c] (hx : KeepsNotes e x)
    (hy : KeepsNotes x y) : KeepsNotes e (if c then y else x) :=
  KeepsNotes.ite (hx.trans hy) hx

end KeepsNotes

theorem keepsNotes_foldl {α : Type} {f : Engine → α → Engine}
    (hf : ∀ e a, KeepsNotes e (f e a)) :
    ∀ (l : List α) (e : Engine), KeepsNotes e (l.foldl f e)
  | [], e => KeepsNotes.refl e
  | a :: l, e => (hf e a).trans (keepsNotes_foldl hf l (f e a))

theorem ViewOf.keepsNotes (h : ViewOf e e') : KeepsNotes e e' := by
  obtain ⟨g, r, s, o, f, rfl⟩ := h
  rfl

/-! ### Steps that note nothing -/

theorem keepsNotes_spawn (e : Engine) (j : Job) : KeepsNotes e (e.spawn j) := rfl

theorem keepsNotes_markActivity (e : Engine) : KeepsNotes e e.markActivity := rfl

theorem keepsNotes_cacheDrop (e : Engine) (id : String) (f : Field) :
    KeepsNotes e (e.cacheDrop id f) := rfl

theorem keepsNotes_persistDeletes (e : Engine) (ids : List String) :
    KeepsNotes e (e.persistDeletes ids) := rfl

theorem keepsNotes_respawn (e : Engine) (s : Session) : KeepsNotes e (e.respawn s) := rfl

theorem keepsNotes_scheduleSave (e : Engine) : KeepsNotes e e.scheduleSave := by
  unfold scheduleSave
  split
  · exact KeepsNotes.refl e
  · rfl

theorem keepsNotes_beginFetch (e : Engine) (id : String) (f : Field) :
    KeepsNotes e (e.beginFetch id f).1 := by
  unfold beginFetch
  split
  · rfl
  · split <;> rfl

theorem keepsNotes_fetchPreview (e : Engine) (id : String) : KeepsNotes e (e.fetchPreview id) := by
  unfold fetchPreview
  have hb := keepsNotes_beginFetch e id .preview
  rcases hc : e.beginFetch id .preview with ⟨e₁, claimed⟩
  rw [hc] at hb
  dsimp only
  split
  · exact hb
  · split <;> exact hb

theorem keepsNotes_claim (e : Engine) (id : String) (f : Field) (j : Job) :
    KeepsNotes e (if (e.beginFetch id f).2 then (e.beginFetch id f).1.spawn j
      else (e.beginFetch id f).1) :=
  KeepsNotes.ite (keepsNotes_beginFetch e id f) (keepsNotes_beginFetch e id f)

theorem keepsNotes_fetchSideData (e : Engine) (id : String) :
    KeepsNotes e (e.fetchSideData id) := by
  unfold fetchSideData
  split
  · exact KeepsNotes.refl e
  · split
    · exact keepsNotes_fetchPreview e id
    · exact (keepsNotes_fetchPreview e id).trans ((keepsNotes_claim _ _ _ _).trans
        ((keepsNotes_claim _ _ _ _).trans (keepsNotes_claim _ _ _ _)))

theorem keepsNotes_onNavigation (e : Engine) : KeepsNotes e e.onNavigation := by
  unfold onNavigation
  dsimp only
  split <;> rfl

theorem keepsNotes_rebuildView (e : Engine) : KeepsNotes e e.rebuildView :=
  (view_rebuildView e).keepsNotes

theorem keepsNotes_fetchSelected (e : Engine) :
    KeepsNotes e (match e.selectedId? with
      | some id => e.fetchSideData id
      | none => e) := by
  split
  · exact keepsNotes_fetchSideData _ _
  · exact KeepsNotes.refl e

/-! ### Handlers of reports -/

theorem keepsNotes_onPreviewDebounce (e : Engine) (id : String) :
    KeepsNotes e (e.onPreviewDebounce id) := by
  unfold onPreviewDebounce
  split
  · exact KeepsNotes.refl e
  · exact keepsNotes_fetchSideData _ _

theorem keepsNotes_onStatusUpdate (e : Engine) (id : String) :
    KeepsNotes e (e.onStatusUpdate id) := by
  unfold onStatusUpdate
  split
  · exact KeepsNotes.refl e
  · dsimp only
    refine KeepsNotes.trans ?_ ((keepsNotes_fetchPreview _ _).trans (keepsNotes_scheduleSave _))
    rfl

theorem keepsNotes_onPreviewCaptured (e : Engine) (id : String)
    (result : Except Error (Option String)) : KeepsNotes e (e.onPreviewCaptured id result) := by
  unfold onPreviewCaptured
  dsimp only
  split
  · rfl
  · split <;> rfl

theorem keepsNotes_onDirtyChecked (e : Engine) (id : String) (result : Except Error Bool) :
    KeepsNotes e (e.onDirtyChecked id result) := by
  unfold onDirtyChecked
  dsimp only
  split
  · rfl
  · split <;> rfl

theorem keepsNotes_onRemoteChecked (e : Engine) (id : String) (result : Except Error String) :
    KeepsNotes e (e.onRemoteChecked id result) := by
  unfold onRemoteChecked
  dsimp only
  split
  · rfl
  · split <;> rfl

theorem keepsNotes_onReviewFetched (e : Engine) (id : String)
    (result : Except Error (Option Review)) : KeepsNotes e (e.onReviewFetched id result) := by
  unfold onReviewFetched
  dsimp only
  split
  · rfl
  · split
    · rfl
    · split
      · rfl
      · split
        · exact keepsNotes_scheduleSave _
        · rfl

theorem keepsNotes_animate (e : Engine) : KeepsNotes e e.animate := by
  unfold animate
  split
  · exact KeepsNotes.refl e
  · exact keepsNotes_foldl keepsNotes_fetchPreview _ _

theorem keepsNotes_persistViewState (e : Engine) : KeepsNotes e e.persistViewState := by
  unfold persistViewState
  dsimp only
  split <;> rfl

theorem keepsNotes_maintainLogs (e : Engine) : KeepsNotes e e.maintainLogs := by
  unfold maintainLogs
  split
  · rfl
  · dsimp only
    split
    · rfl
    · split <;> rfl

theorem keepsNotes_chores (e : Engine) : KeepsNotes e e.chores := by
  unfold chores
  dsimp only
  -- the chores, peeled from the last one in
  refine KeepsNotes.ite_stage ?_ rfl
  refine KeepsNotes.trans ?_ rfl
  refine KeepsNotes.trans ?_ (keepsNotes_maintainLogs _)
  refine KeepsNotes.ite_stage ?_ (keepsNotes_persistViewState _)
  refine KeepsNotes.ite_stage ?_ rfl
  exact KeepsNotes.trans rfl (keepsNotes_animate _)

theorem keepsNotes_probeIfDue (e : Engine) : KeepsNotes e e.probeIfDue := by
  unfold probeIfDue
  split
  · rfl
  · dsimp only
    exact KeepsNotes.ite_stage rfl rfl

theorem keepsNotes_tick (e : Engine) : KeepsNotes e e.tick := by
  unfold tick
  dsimp only
  have hprobe := (keepsNotes_chores e).trans (keepsNotes_probeIfDue _)
  refine KeepsNotes.ite (keepsNotes_chores e) ?_
  exact KeepsNotes.ite (hprobe.trans (keepsNotes_fetchSelected _)) hprobe

theorem keepsNotes_applyProbe (e : Engine) (p : Probe) : KeepsNotes e (e.applyProbe p) := by
  unfold applyProbe
  split
  · rfl
  · split
    · rfl
    · split <;> rfl

theorem keepsNotes_onStatusesProbed (e : Engine) (result : Except Error (List Probe)) :
    KeepsNotes e (e.onStatusesProbed result) := by
  unfold onStatusesProbed
  dsimp only
  split
  · exact KeepsNotes.trans rfl (keepsNotes_foldl keepsNotes_applyProbe _ _)
  · rfl

theorem keepsNotes_onHookStatus (e : Engine) (ev : HookEvent) :
    KeepsNotes e (e.onHookStatus ev) := by
  unfold onHookStatus
  dsimp only
  rcases e.session? ev.instanceId with _ | s
  · exact KeepsNotes.refl e
  · dsimp only
    refine KeepsNotes.ite_stage ?_ (keepsNotes_scheduleSave _)
    refine KeepsNotes.ite_stage ?_
      ((keepsNotes_cacheDrop _ _ _).trans (keepsNotes_fetchPreview _ _))
    rfl

/-! ### Calls on the view -/

theorem keepsNotes_moveCursor (e : Engine) (delta : Int) : KeepsNotes e (e.moveCursor delta) := by
  unfold moveCursor
  split
  · rfl
  · dsimp only
    refine KeepsNotes.trans ?_ (keepsNotes_onNavigation _)
    exact (view_ensureVisible _).keepsNotes

theorem keepsNotes_selectSession (e : Engine) (id : String) :
    KeepsNotes e (e.selectSession id).1 := by
  unfold selectSession
  split
  · next e' h => exact (view_placeCursor? h).keepsNotes.trans (keepsNotes_onNavigation _)
  · split
    · rfl
    · dsimp only
      split
      · next e' h =>
        exact (view_placeCursor? h).keepsNotes.trans
          ((keepsNotes_scheduleSave _).trans (keepsNotes_onNavigation _))
      · rfl

theorem keepsNotes_selectGroup (e : Engine) (path : String) :
    KeepsNotes e (e.selectGroup path).1 := by
  unfold selectGroup
  split
  · next e' h => exact (view_placeCursor? h).keepsNotes.trans (keepsNotes_onNavigation _)
  · rfl

theorem keepsNotes_toggleGroup (e : Engine) (path : String) :
    KeepsNotes e (e.toggleGroup path) := by
  unfold toggleGroup
  split
  · rfl
  · dsimp only
    refine KeepsNotes.trans ?_ ((keepsNotes_scheduleSave _).trans (keepsNotes_onNavigation _))
    split
    · next e' h => exact (view_placeCursor? h).keepsNotes
    · exact (view_placeOrClamp _ _).keepsNotes

theorem keepsNotes_renameSession (e : Engine) (id title : String) (h : e.reloading = false) :
    KeepsNotes e (e.renameSession id title).1 := by
  unfold renameSession
  split
  · rfl
  · dsimp only
    have hview := keepsNotes_rebuildView (e.modifySession id fun s => { s with title })
    have hidle : (e.modifySession id fun s => { s with title }).rebuildView.reloading = false :=
      (quiet_rebuildView _).reloading.trans h
    rw [if_neg (by simp [hidle])]
    exact KeepsNotes.trans (hview.trans (keepsNotes_scheduleSave _)) rfl

theorem keepsNotes_call (e : Engine) (c : Call) (h : e.reloading = false) :
    KeepsNotes e (e.call c) := by
  cases c with
  | moveCursor delta => exact keepsNotes_moveCursor e delta
  | selectSession id => exact keepsNotes_selectSession e id
  | selectGroup path => exact keepsNotes_selectGroup e path
  | toggleGroup path => exact keepsNotes_toggleGroup e path
  | setHeight height => exact (view_ensureVisible _).keepsNotes
  | rename id title => exact keepsNotes_renameSession e id title h


/-! ### Handlers of lifecycle events and stored removals -/

theorem keepsNotes_noteStored (e : Engine) (s : Session) (stored : Except Error Unit) :
    KeepsNotes e (e.noteStored s stored) := by
  unfold noteStored
  split <;> rfl

theorem keepsNotes_insertSession (e : Engine) (s : Session) : KeepsNotes e (e.insertSession s) := by
  unfold insertSession
  exact keepsNotes_rebuildView _

theorem keepsNotes_addSession (e : Engine) (s : Session) (anim : Animation)
    (stored : Except Error Unit) : KeepsNotes e (e.addSession s anim stored) := by
  have hn := keepsNotes_noteStored e s stored
  cases h : e.reloading
  · rw [addSession_of_idle s anim stored h]
    refine hn.trans ((keepsNotes_insertSession _ s).trans ?_)
    refine KeepsNotes.trans ?_ ((keepsNotes_selectSession _ s.id).trans (keepsNotes_scheduleSave _))
    rfl
  · rw [addSession_of_reloading s anim stored h]
    exact hn

theorem keepsNotes_foldl_dropFound (l : List String) (acc : Engine × List Session) :
    KeepsNotes acc.1 (l.foldl dropFound acc).1 := by
  induction l generalizing acc with
  | nil => exact KeepsNotes.refl _
  | cons id l ih =>
    refine KeepsNotes.trans ?_ (ih (dropFound acc id))
    unfold dropFound
    split
    · rfl
    · exact KeepsNotes.refl _

theorem keepsNotes_deleteSessions (e : Engine) (l : List String) (kill : Bool) :
    KeepsNotes e (e.deleteSessions l kill) := by
  cases h : e.reloading
  · rw [deleteSessions_of_idle l kill h]
    dsimp only
    have hd := keepsNotes_foldl_dropFound l (e, [])
    split
    · exact hd
    · have hs : ∀ ids, KeepsNotes e
          ((l.foldl dropFound (e, [])).1.rebuildView.persistDeletes ids).scheduleSave := fun _ =>
        hd.trans ((keepsNotes_rebuildView _).trans
          ((keepsNotes_persistDeletes _ _).trans (keepsNotes_scheduleSave _)))
      exact KeepsNotes.ite ((hs _).trans (keepsNotes_spawn _ _)) (hs _)
  · rw [deleteSessions_of_reloading l kill h]
    exact KeepsNotes.refl e

theorem keepsNotes_restoreSession (e : Engine) (s : Session) (stored : Except Error Unit) :
    KeepsNotes e (e.restoreSession s stored) := by
  rw [restoreSession_eq]
  dsimp only
  refine (keepsNotes_noteStored e s stored).trans ?_
  refine KeepsNotes.trans ?_ ((keepsNotes_scheduleSave _).trans (keepsNotes_respawn _ s))
  refine KeepsNotes.trans ?_ (keepsNotes_selectSession _ s.id)
  refine KeepsNotes.trans ?_ (keepsNotes_cacheDrop _ s.id .preview)
  refine KeepsNotes.trans ?_ rfl
  exact keepsNotes_insertSession _ s

theorem keepsNotes_onDeletesPersisted (e : Engine) (ids : List String)
    (result : Except Error Unit) : KeepsNotes e (e.onDeletesPersisted ids result) := by
  obtain ⟨banner, pd, h⟩ := onDeletesPersisted_eq (e := e) ids result
  rw [h]
  rfl

theorem Message.reload_cases (m : Message) :
    m = .storageChanged ∨ (∃ v r, m = .reloadLoaded v r) ∨
      (m ≠ .storageChanged ∧ ∀ v r, m ≠ .reloadLoaded v r) := by
  cases m <;> simp

theorem keepsNotes_react (e : Engine) (m : Message) (stored : Except Error Unit)
    (hs : m ≠ .storageChanged) (hl : ∀ v r, m ≠ .reloadLoaded v r) :
    KeepsNotes e (e.react m stored) := by
  cases m with
  | storageChanged => exact absurd rfl hs
  | lifecycle ev =>
    cases ev with
    | created s => exact keepsNotes_addSession e s .launching stored
    | forked s => exact keepsNotes_addSession e s .forking stored
    | deleted id kill => exact keepsNotes_deleteSessions e [id] kill
    | bulkDeleted ids kill => exact keepsNotes_deleteSessions e ids kill
    | restored =>
      rcases react_restored e stored with ⟨s, -, he⟩ | ⟨-, he⟩
      · rw [he]
        exact keepsNotes_restoreSession e s stored
      · rw [he]
        exact KeepsNotes.refl e
  | statusUpdate id => exact keepsNotes_onStatusUpdate e id
  | tick => exact keepsNotes_tick e
  | previewDebounce id => exact keepsNotes_onPreviewDebounce e id
  | hookStatus ev => exact keepsNotes_onHookStatus e ev
  | reloadLoaded v r => exact absurd rfl (hl v r)
  | previewCaptured id r => exact keepsNotes_onPreviewCaptured e id r
  | dirtyChecked id r => exact keepsNotes_onDirtyChecked e id r
  | remoteChecked id r => exact keepsNotes_onRemoteChecked e id r
  | reviewFetched id r => exact keepsNotes_onReviewFetched e id r
  | statusesProbed r => exact keepsNotes_onStatusesProbed e r
  | deletesPersisted ids r => exact keepsNotes_onDeletesPersisted e ids r
  | saveFailed text => rfl
  | failure text => rfl

/-! ### Guards marked landed

A guard is marked landed only by a stored removal during a reload. -/

section Landed

variable {α : Type} {v : α} {k : String} {p : String × α}

theorem mem_putKey_value {tbl : List (String × α)} (hp : p ∈ putKey tbl k v) :
    p ∈ tbl ∨ p.2 = v := by
  unfold putKey at hp
  split at hp
  · obtain ⟨q, hq, rfl⟩ := List.mem_map.mp hp
    by_cases hk : q.1 == k
    · exact .inr (by simp [hk])
    · exact .inl (by simpa [hk] using hq)
  · rcases List.mem_append.mp hp with hp | hp
    · exact .inl hp
    · exact .inr (by rw [List.mem_singleton.mp hp])

theorem mem_foldl_putKey_value (ids : List String) {tbl : List (String × α)}
    (hp : p ∈ ids.foldl (fun t id => putKey t id v) tbl) : p ∈ tbl ∨ p.2 = v := by
  induction ids generalizing tbl with
  | nil => exact .inl hp
  | cons x ids ih =>
    rcases ih hp with hp | hp
    · exact (mem_putKey_value hp).imp_left fun h => h
    · exact .inr hp

end Landed

theorem landed_deleteSessions (l : List String) (kill : Bool) {p : String × Bool}
    (hp : p ∈ (e.deleteSessions l kill).pendingDeletes) :
    p ∈ e.pendingDeletes ∨ p.2 = false := by
  cases h : e.reloading
  · rw [deleteSessions_of_idle l kill h] at hp
    dsimp only at hp
    have hframe := frame_foldl_dropFound l (e, [])
    split at hp
    · rw [hframe.pendingDeletes] at hp
      exact .inl hp
    · rw [(quiet_killIf _ _ _).pendingDeletes, (quiet_scheduleSave _).pendingDeletes,
        persistDeletes_pendingDeletes, (quiet_rebuildView _).pendingDeletes,
        hframe.pendingDeletes] at hp
      exact mem_foldl_putKey_value _ hp
  · rw [deleteSessions_of_reloading l kill h] at hp
    exact .inl hp

theorem mem_foldl_settleDelete_of_idle (ids : List String) (e : Engine) (h : e.reloading = false)
    {p : String × Bool} (hp : p ∈ (ids.foldl settleDelete e).pendingDeletes) :
    p ∈ e.pendingDeletes := by
  induction ids generalizing e with
  | nil => exact hp
  | cons id ids ih =>
    have hstep : e.settleDelete id = { e with pendingDeletes := dropKey e.pendingDeletes id } := by
      unfold settleDelete
      rw [if_neg (by simp [h])]
    rw [List.foldl_cons, hstep] at hp
    exact ((mem_dropKey _ _).mp
      (ih { e with pendingDeletes := dropKey e.pendingDeletes id } h hp)).1

theorem landed_react (h : e.reloading = false) (m : Message) (stored : Except Error Unit)
    {p : String × Bool} (hp : p ∈ (e.react m stored).pendingDeletes) :
    p ∈ e.pendingDeletes ∨ p.2 = false := by
  cases hm : m.touchesBookkeeping
  · rw [(quiet_react e stored hm).pendingDeletes] at hp
    exact .inl hp
  cases m <;> simp only [Message.touchesBookkeeping, Bool.false_eq_true] at hm
  case storageChanged => exact .inl hp
  case lifecycle ev =>
    cases ev with
    | created s => exact .inl (addSession_pendingDeletes s .launching stored ▸ hp)
    | forked s => exact .inl (addSession_pendingDeletes s .forking stored ▸ hp)
    | deleted id kill => exact landed_deleteSessions [id] kill hp
    | bulkDeleted ids kill => exact landed_deleteSessions ids kill hp
    | restored =>
      rcases react_restored e stored with ⟨s, -, he⟩ | ⟨-, he⟩
      · rw [he, mem_pendingDeletes_restoreSession] at hp
        exact .inl hp.1
      · rw [he] at hp
        exact .inl hp
  case reloadLoaded v r =>
    -- a finished load only keeps or drops guards
    by_cases hcur : v = e.reloadVersion ∧ e.reloading = true
    · exact .inl (((finishReload_current hcur.1 hcur.2 r).2.2.2 p).mp hp).1
    · rw [react, finishReload_of_stale r hcur] at hp
      exact .inl hp
  case deletesPersisted ids r =>
    have hq := quiet_noteRemoval (e := e) r
    unfold react onDeletesPersisted at hp
    exact .inl (hq.pendingDeletes ▸
      mem_foldl_settleDelete_of_idle ids _ (hq.reloading.trans h) hp)

/-! ### A finished load -/

theorem keepsNotes_foldl_insertKept (l : List Session) (acc : Engine × Bool) :
    KeepsNotes acc.1 (l.foldl insertKept acc).1 := by
  induction l generalizing acc with
  | nil => exact KeepsNotes.refl _
  | cons s l ih =>
    refine KeepsNotes.trans ?_ (ih (insertKept acc s))
    unfold insertKept
    split
    · exact KeepsNotes.refl _
    · exact keepsNotes_insertSession _ s

theorem keepsNotes_keepForceSaved (e : Engine) : KeepsNotes e e.keepForceSaved := by
  rw [keepForceSaved_eq]
  dsimp only
  have hk := keepsNotes_foldl_insertKept e.forceSaved ({ e with forceSaved := [] }, false)
  exact KeepsNotes.ite (hk.trans (keepsNotes_scheduleSave _)) hk

theorem notes_finishReload {version : Nat} (hv : version = e.reloadVersion)
    (hr : e.reloading = true) (result : Except Error Snapshot) :
    KeepsNotes { e with restore := none, pendingTitles := [] } (e.finishReload version result) := by
  cases result with
  | error err =>
    rw [finishReload_error hv hr err]
    dsimp only
    refine KeepsNotes.trans ?_ (keepsNotes_keepForceSaved _)
    exact KeepsNotes.ite rfl rfl
  | ok snap =>
    obtain ⟨r, heq⟩ := finishReload_ok hv hr snap
    rw [heq]
    dsimp only
    obtain ⟨g, rs, sel, off, c, f, hI⟩ := install_fst { e with restore := none } snap r
    rw [hI]
    refine KeepsNotes.trans ?_ (KeepsNotes.ite
      ((keepsNotes_fetchSelected _).trans (keepsNotes_scheduleSave _)) (keepsNotes_fetchSelected _))
    rfl

end Engine

/-! ### Inputs as the protocol sees them -/

/-- The input reports that the registry changed on disk. -/
def Input.changesStorage : Input → Bool
  | .message .storageChanged _ _ => true
  | _ => false

/-- The version of the load whose answer the input brings, if it brings one. -/
def Input.loadVersion? : Input → Option Nat
  | .message m _ _ => m.loadVersion?
  | .call _ _ => none

/-- The clock reading the input comes with. -/
def Input.clock : Input → Nat
  | .message _ _ clock => clock
  | .call _ clock => clock

/-- The message asks to delete sessions or to undo a delete. -/
def Message.refusedWhileReloading : Message → Bool
  | .lifecycle (.deleted ..) | .lifecycle (.bulkDeleted ..) | .lifecycle .restored => true
  | _ => false

/-- The session the message creates or forks. -/
def Message.added? : Message → Option Session
  | .lifecycle (.created s) | .lifecycle (.forked s) => some s
  | _ => none

namespace Engine

variable {e : Engine}

/-- `i` is the answer of the load of the reload `e` runs: `e` takes it in. -/
def Applies (e : Engine) (i : Input) : Prop :=
  i.loadVersion? = some e.reloadVersion ∧ e.reloading = true

/-- No answer among `inputs` is taken in when they are fed to `e` in turn. -/
def NoneApplies (e : Engine) : List Input → Prop
  | [] => True
  | i :: rest => ¬e.Applies i ∧ NoneApplies (e.take i) rest

theorem applies_reloadLoaded {v : Nat} {r : Except Error Snapshot} {stored : Except Error Unit}
    {clock : Nat} :
    e.Applies (.message (.reloadLoaded v r) stored clock) ↔
      v = e.reloadVersion ∧ e.reloading = true := by
  simp [Applies, Input.loadVersion?, Message.loadVersion?]

/-- Outside a reload nothing is noted for one: no session kept aside, no title, no view to put
back, and no guard marked landed. -/
structure Settled (e : Engine) : Prop where
  forceSaved : e.reloading = false → e.forceSaved = []
  pendingTitles : e.reloading = false → e.pendingTitles = []
  restore : e.reloading = false → e.restore = none
  landed : e.reloading = false → ∀ p ∈ e.pendingDeletes, p.2 = false

theorem Settled.of_reloading (h : e.reloading = true) : e.Settled := by
  refine ⟨?_, ?_, ?_, ?_⟩ <;> intro hr <;> simp [h] at hr

theorem Settled.of_step {e' : Engine} (h : e.Settled) (hr : e'.reloading = e.reloading)
    (hf : e'.reloading = false → e'.forceSaved = e.forceSaved)
    (hn : e.reloading = false → KeepsNotes e e')
    (hl : e.reloading = false →
      ∀ p ∈ e'.pendingDeletes, p ∈ e.pendingDeletes ∨ p.2 = false) :
    e'.Settled := by
  cases he : e.reloading
  · rw [he] at hr
    refine ⟨fun _ => (hf hr).trans (h.forceSaved he), fun _ => ?_, fun _ => ?_,
      fun _ p hp => ?_⟩
    · exact ((hn he).pendingTitles).trans (h.pendingTitles he)
    · exact ((hn he).restore).trans (h.restore he)
    · rcases hl he p hp with hp | hp
      · exact h.landed he p hp
      · exact hp
  · exact Settled.of_reloading (hr.trans he)

theorem settled_finishReload {version : Nat} (hv : version = e.reloadVersion)
    (hr : e.reloading = true) (result : Except Error Snapshot) :
    (e.finishReload version result).Settled := by
  obtain ⟨-, -, hkept, hpd⟩ := finishReload_current hv hr result
  have hn := notes_finishReload hv hr result
  exact ⟨fun _ => hkept, fun _ => hn.pendingTitles, fun _ => hn.restore,
    fun _ p hp => ((hpd p).mp hp).2⟩

/-! ### One input -/

theorem reloadVersion_take (e : Engine) (i : Input) :
    (e.take i).reloadVersion = e.reloadVersion + if i.changesStorage then 1 else 0 := by
  cases i with
  | call c clock =>
    simp [Input.changesStorage, (quiet_take_call e c clock).reloadVersion]
  | message m stored clock =>
    rcases Message.reload_cases m with rfl | ⟨v, r, rfl⟩ | ⟨hs, hl⟩
    · rfl
    · by_cases hcur : v = e.reloadVersion ∧ e.reloading = true
      · simp [Input.changesStorage, take, react,
          (finishReload_current (e := { e with clock }) hcur.1 hcur.2 r).1.reloadVersion]
      · simp [Input.changesStorage, take, react,
          finishReload_of_stale (e := { e with clock }) r hcur]
    · have hm : (Input.message m stored clock).changesStorage = false := by
        cases m <;> simp_all [Input.changesStorage]
      rw [hm, (steady_take e m stored clock hs hl).reloadVersion]
      rfl

theorem reloading_take (e : Engine) (i : Input) :
    (e.take i).reloading = true ↔
      i.changesStorage = true ∨ (e.reloading = true ∧ ¬e.Applies i) := by
  cases i with
  | call c clock =>
    simp [Input.changesStorage, Applies, Input.loadVersion?, (quiet_take_call e c clock).reloading]
  | message m stored clock =>
    rcases Message.reload_cases m with rfl | ⟨v, r, rfl⟩ | ⟨hs, hl⟩
    · simp [Input.changesStorage]
      rfl
    · rw [applies_reloadLoaded]
      by_cases hcur : v = e.reloadVersion ∧ e.reloading = true
      · show ({ e with clock }.finishReload v r).reloading = true ↔ _
        rw [(finishReload_current (e := { e with clock }) hcur.1 hcur.2 r).2.1]
        simp [Input.changesStorage, hcur]
      · show ({ e with clock }.finishReload v r).reloading = true ↔ _
        rw [finishReload_of_stale (e := { e with clock }) r hcur]
        simp [Input.changesStorage, hcur]
    · have hm : (Input.message m stored clock).changesStorage = false := by
        cases m <;> simp_all [Input.changesStorage]
      have ha : ¬e.Applies (.message m stored clock) := by
        cases m <;> simp_all [Applies, Input.loadVersion?, Message.loadVersion?]
      rw [(steady_take e m stored clock hs hl).reloading, hm]
      simp [ha]

theorem take_of_stale (e : Engine) (i : Input) (hv : i.loadVersion?.isSome = true)
    (h : ¬e.Applies i) : e.take i = { e with clock := i.clock } := by
  cases i with
  | call c clock => simp [Input.loadVersion?] at hv
  | message m stored clock =>
    cases m <;> simp [Input.loadVersion?, Message.loadVersion?] at hv
    case reloadLoaded v r =>
      exact finishReload_of_stale (e := { e with clock }) r (applies_reloadLoaded.not.mp h)

theorem Settled.take (h : e.Settled) (i : Input) : (e.take i).Settled := by
  cases i with
  | call c clock =>
    have hq := quiet_take_call e c clock
    exact h.of_step hq.reloading (fun _ => hq.forceSaved)
      (fun hr => KeepsNotes.trans rfl (keepsNotes_call { e with clock } c hr))
      (fun _ p hp => .inl (hq.pendingDeletes ▸ hp))
  | message m stored clock =>
    rcases Message.reload_cases m with rfl | ⟨v, r, rfl⟩ | ⟨hs, hl⟩
    · exact Settled.of_reloading rfl
    · by_cases hcur : v = e.reloadVersion ∧ e.reloading = true
      · exact settled_finishReload (e := { e with clock }) hcur.1 hcur.2 r
      · rw [take_of_stale e _ rfl (applies_reloadLoaded.not.mpr hcur)]
        exact ⟨h.forceSaved, h.pendingTitles, h.restore, h.landed⟩
    · have hst := steady_take e m stored clock hs hl
      exact h.of_step hst.reloading hst.forceSaved
        (fun _ => KeepsNotes.trans rfl (keepsNotes_react { e with clock } m stored hs hl))
        (fun hr p hp => landed_react (e := { e with clock }) hr m stored hp)

/-! ### During a reload -/

/-- During a reload a delete or an undo changes nothing but the clock and stores nothing. -/
theorem take_refused (h : e.reloading = true) {m : Message} (hm : m.refusedWhileReloading = true)
    (stored : Except Error Unit) (clock : Nat) :
    e.storedBy m = none ∧ e.take (.message m stored clock) = { e with clock } := by
  have hu : e.undoTarget? = none := by simp [undoTarget?, h]
  cases m <;> simp only [Message.refusedWhileReloading, Bool.false_eq_true] at hm
  case lifecycle ev =>
    cases ev <;> simp only [Bool.false_eq_true] at hm
    case deleted id kill =>
      exact ⟨rfl, deleteSessions_of_reloading (e := { e with clock }) [id] kill h⟩
    case bulkDeleted ids kill =>
      exact ⟨rfl, deleteSessions_of_reloading (e := { e with clock }) ids kill h⟩
    case restored =>
      refine ⟨hu, ?_⟩
      rcases react_restored { e with clock } stored with ⟨s, hs, -⟩ | ⟨-, he⟩
      · simp [undoTarget?, h] at hs
      · exact he

theorem take_added (h : e.reloading = true) {m : Message} {s : Session} (hm : m.added? = some s)
    (stored : Except Error Unit) (clock : Nat) :
    e.storedBy m = some s ∧ (e.take (.message m stored clock)).sessions = e.sessions ∧
      (e.take (.message m stored clock)).jobs = e.jobs ∧
      (e.take (.message m stored clock)).forceSaved = e.forceSaved ++ [s] := by
  have hq := quiet_noteStored { e with clock } s stored
  have hj := noteStored_jobs { e with clock } s stored
  have hs : ({ e with clock }.noteStored s stored).sessions = e.sessions := by
    unfold noteStored
    split <;> rfl
  cases m <;> simp only [Message.added?, reduceCtorEq] at hm
  case lifecycle ev =>
    cases ev <;> simp only [reduceCtorEq, Option.some.injEq] at hm
    all_goals
      subst hm
      refine ⟨rfl, ?_⟩
      simp only [take, react]
      rw [addSession_of_reloading (e := { e with clock }) _ _ _ h]
      dsimp only
      exact ⟨hs, hj, by rw [hq.forceSaved]⟩

/-! ### Runs -/

theorem reloadVersion_feed (e : Engine) (inputs : List Input) :
    (e.feed inputs).reloadVersion = e.reloadVersion + inputs.countP Input.changesStorage := by
  induction inputs generalizing e with
  | nil => rfl
  | cons i rest ih =>
    rw [feed_cons, ih, reloadVersion_take, List.countP_cons]
    omega

theorem exists_cons_eq_append_iff {α : Type} (P : List α → α → List α → Prop) (a : α)
    (l : List α) :
    (∃ pre x post, a :: l = pre ++ x :: post ∧ P pre x post) ↔
      P [] a l ∨ ∃ pre x post, l = pre ++ x :: post ∧ P (a :: pre) x post := by
  constructor
  · rintro ⟨pre, x, post, h, hp⟩
    cases pre with
    | nil =>
      obtain ⟨rfl, rfl⟩ := List.cons.inj h
      exact .inl hp
    | cons b pre =>
      obtain ⟨rfl, rfl⟩ := List.cons.inj h
      exact .inr ⟨pre, x, post, rfl, hp⟩
  · rintro (hp | ⟨pre, x, post, rfl, hp⟩)
    · exact ⟨[], a, l, rfl, hp⟩
    · exact ⟨a :: pre, x, post, rfl, hp⟩

theorem reloading_feed (e : Engine) (inputs : List Input) :
    (e.feed inputs).reloading = true ↔
      (e.reloading = true ∧ NoneApplies e inputs) ∨
        ∃ pre i post, inputs = pre ++ i :: post ∧ i.changesStorage = true ∧
          NoneApplies (e.feed (pre ++ [i])) post := by
  induction inputs generalizing e with
  | nil => simp [NoneApplies]
  | cons i rest ih =>
    -- the storage change the reload started with is the first input or a later one
    rw [feed_cons, ih, reloading_take, exists_cons_eq_append_iff]
    simp only [NoneApplies, List.nil_append, List.cons_append, feed_cons, feed_nil]
    tauto

theorem settled_feed (h : e.Settled) (inputs : List Input) : (e.feed inputs).Settled := by
  induction inputs generalizing e with
  | nil => exact h
  | cons i rest ih => exact ih (h.take i)

theorem boot_new (config : Config) (registry : Registry) (mux : Mux) (git : GitLookup) (now : Nat)
    (snap : Snapshot) (v : ViewState) :
    let e := (Engine.new config registry mux git now).boot snap v
    e.reloading = false ∧ e.reloadVersion = 0 ∧ e.Settled := by
  obtain ⟨e₁, hq, -, hr, hv, -, hf, hpd, -⟩ :=
    boot_spec (Engine.new config registry mux git now) snap v
  have hn : KeepsNotes (Engine.new config registry mux git now)
      ((Engine.new config registry mux git now).boot snap v) := by
    unfold boot
    dsimp only
    obtain ⟨g, rs, sel, off, cache, f, hI⟩ :=
      install_fst (Engine.new config registry mux git now) snap (Restore.ofViewState v)
    rw [hI]
    exact KeepsNotes.trans rfl (keepsNotes_fetchSelected _)
  refine ⟨hq.reloading.trans hr, hq.reloadVersion.trans hv, fun _ => hq.forceSaved.trans hf,
    fun _ => hn.pendingTitles, fun _ => hn.restore, fun _ p hp => ?_⟩
  rw [hq.pendingDeletes, hpd] at hp
  exact absurd hp List.not_mem_nil

/-! ### Titles kept aside

A rename during a reload puts its title under the session's id, over one kept before, and the
answer of the reload clears them all; so no id ever has two titles kept aside. -/

theorem KeepsNotes.nodup_titles {e' : Engine} (hk : KeepsNotes e e')
    (h : (e.pendingTitles.map Prod.fst).Nodup) :
    (e'.pendingTitles.map Prod.fst).Nodup :=
  hk.pendingTitles ▸ h

theorem nodup_titles_renameSession (h : (e.pendingTitles.map Prod.fst).Nodup) (id title : String) :
    ((e.renameSession id title).1.pendingTitles.map Prod.fst).Nodup := by
  unfold renameSession
  split
  · exact h
  · dsimp only
    have hview : KeepsNotes e (e.modifySession id fun s => { s with title }).rebuildView :=
      KeepsNotes.trans rfl (keepsNotes_rebuildView _)
    refine KeepsNotes.nodup_titles (keepsNotes_markActivity _) ?_
    split
    · exact nodup_keys_putKey _ id title (hview.nodup_titles h)
    · exact (hview.trans (keepsNotes_scheduleSave _)).nodup_titles h

theorem nodup_titles_take (h : (e.pendingTitles.map Prod.fst).Nodup) (i : Input) :
    ((e.take i).pendingTitles.map Prod.fst).Nodup := by
  cases i with
  | call c clock =>
    cases c with
    | rename id title => exact nodup_titles_renameSession (e := { e with clock }) h id title
    | moveCursor delta => exact (keepsNotes_moveCursor { e with clock } delta).nodup_titles h
    | selectSession id => exact (keepsNotes_selectSession { e with clock } id).nodup_titles h
    | selectGroup path => exact (keepsNotes_selectGroup { e with clock } path).nodup_titles h
    | toggleGroup path => exact (keepsNotes_toggleGroup { e with clock } path).nodup_titles h
    | setHeight height => exact (view_ensureVisible _).keepsNotes.nodup_titles h
  | message m stored clock =>
    rcases Message.reload_cases m with rfl | ⟨v, r, rfl⟩ | ⟨hs, hl⟩
    · -- a storage change starts a reload and keeps what was kept aside
      exact h
    · by_cases hcur : v = e.reloadVersion ∧ e.reloading = true
      · -- the answer of the running reload clears every title kept aside
        have hn := notes_finishReload (e := { e with clock }) hcur.1 hcur.2 r
        show (({ e with clock }.finishReload v r).pendingTitles.map Prod.fst).Nodup
        rw [hn.pendingTitles]
        exact List.nodup_nil
      · rw [take_of_stale e _ rfl (applies_reloadLoaded.not.mpr hcur)]
        exact h
    · exact (keepsNotes_react { e with clock } m stored hs hl).nodup_titles h

theorem nodup_titles_feed (h : (e.pendingTitles.map Prod.fst).Nodup) (inputs : List Input) :
    ((e.feed inputs).pendingTitles.map Prod.fst).Nodup := by
  induction inputs generalizing e with
  | nil => exact h
  | cons i rest ih => exact ih (nodup_titles_take h i)

/-- In every state a run reaches, no id has two titles kept aside. -/
theorem Reachable.nodup_titles (h : e.Reachable) : (e.pendingTitles.map Prod.fst).Nodup := by
  obtain ⟨config, registry, mux, git, now, snap, v, inputs, -, -, rfl⟩ := h
  obtain ⟨hr, -, hs⟩ := boot_new config registry mux git now snap v
  refine nodup_titles_feed ?_ inputs
  rw [hs.pendingTitles hr]
  exact List.nodup_nil

/-- The reload protocol, over every run from boot: the version counts the storage changes; a
reload runs exactly when a storage change came after the last answer taken in; an answer is
taken in exactly when it is of the running reload's version, which ends that reload, and any
other answer changes nothing but the clock; outside a reload nothing is noted for one; and during
a reload deletes and undos change nothing and store nothing, while a new session is stored and
kept aside without touching the sessions in memory or queuing a job. -/
theorem reload_protocol (config : Config) (registry : Registry) (mux : Mux) (git : GitLookup)
    (now : Nat) (snap : Snapshot) (v : ViewState) (inputs : List Input) :
    let e₀ := (Engine.new config registry mux git now).boot snap v
    let e := e₀.feed inputs
    e.reloadVersion = inputs.countP Input.changesStorage ∧
    (e.reloading = true ↔
      ∃ pre i post, inputs = pre ++ i :: post ∧ i.changesStorage = true ∧
        NoneApplies (e₀.feed (pre ++ [i])) post) ∧
    (∀ i : Input, i.loadVersion?.isSome = true →
      (e.Applies i → (e.take i).reloading = false) ∧
        (¬e.Applies i → e.take i = { e with clock := i.clock })) ∧
    e.Settled ∧
    (e.reloading = true → ∀ m stored clock, m.refusedWhileReloading = true →
      e.storedBy m = none ∧ e.take (.message m stored clock) = { e with clock }) ∧
    (e.reloading = true → ∀ m s stored clock, m.added? = some s →
      e.storedBy m = some s ∧ (e.take (.message m stored clock)).sessions = e.sessions ∧
        (e.take (.message m stored clock)).jobs = e.jobs ∧
        (e.take (.message m stored clock)).forceSaved = e.forceSaved ++ [s]) := by
  intro e₀ e
  obtain ⟨hr₀, hv₀, hs₀⟩ := boot_new config registry mux git now snap v
  refine ⟨?_, ?_, fun i hi => ⟨fun ha => ?_, take_of_stale e i hi⟩, settled_feed hs₀ inputs,
    fun hr m stored clock hm => take_refused hr hm stored clock,
    fun hr m s stored clock hm => take_added hr hm stored clock⟩
  · rw [reloadVersion_feed, hv₀, Nat.zero_add]
  · rw [reloading_feed, hr₀]
    simp
  · -- the answer taken in is not a storage change, so the reload it ends does not go on
    have hc : i.changesStorage = false := by
      cases i with
      | call c clock => rfl
      | message m stored clock =>
        cases m <;> simp_all [Input.loadVersion?, Message.loadVersion?, Input.changesStorage]
    cases hend : (e.take i).reloading
    · rfl
    · rcases (reloading_take e i).mp hend with hs | ⟨-, hna⟩
      · simp [hc] at hs
      · exact absurd ha hna

end Engine

end AgentDeck
