import AgentDeck.Engine.Fetches
import AgentDeck.Proofs.Deck.Sound

/-!
The in-flight list of the side-data fetches against the fetches that are really out.

A fetch is claimed, put on the in-flight list, right before its job is queued, and taken off when
its result is handled. Every handler except three changes the two together: it only claims
fetches (`Claims`). A delete and the pruning of a tick take the fetches of the sessions they
drop off the list while the fetches stay out (`Releases`), and the result of a fetch takes it
off. So the in-flight list always names fetches that are out, each once (`FetchesOut`), and it
names all of them, each out once, as long as nothing takes a fetch off the list early
(`FetchesExact`).
-/

namespace AgentDeck

namespace Engine

variable {e e₁ e' : Engine}

@[simp] theorem outstanding_spawn (e : Engine) (j : Job) :
    (e.spawn j).outstanding = e.outstanding ++ (j.fetchKey?).toList := by
  simp only [outstanding, spawn, List.filterMap_append, List.filterMap_cons, List.filterMap_nil]
  cases j.fetchKey? <;> rfl

/-! ### Steps that only claim fetches -/

/-- `e'` keeps the fetch bookkeeping of `e`, except for the fetches `ks` it claims: each is put
on the in-flight list once, after those already there, and queued. -/
def Claims (e e' : Engine) : Prop :=
  ∃ ks : List (String × Field), e'.inFlight = e.inFlight ++ ks ∧
    e'.outstanding = e.outstanding ++ ks ∧ (e.inFlight.Nodup → e'.inFlight.Nodup)

namespace Claims

theorem refl (e : Engine) : Claims e e := ⟨[], by simp, by simp, id⟩

theorem trans (h₁ : Claims e e₁) (h₂ : Claims e₁ e') : Claims e e' := by
  obtain ⟨ks₁, hi₁, ho₁, hn₁⟩ := h₁
  obtain ⟨ks₂, hi₂, ho₂, hn₂⟩ := h₂
  exact ⟨ks₁ ++ ks₂, by rw [hi₂, hi₁, List.append_assoc], by rw [ho₂, ho₁, List.append_assoc],
    hn₂ ∘ hn₁⟩

/-- A step that touches neither the in-flight list nor the queue claims nothing. -/
theorem of_eq (hi : e'.inFlight = e.inFlight) (hj : e'.jobs = e.jobs) : Claims e e' :=
  ⟨[], by simp [hi], by simp [outstanding, hj], fun h => hi ▸ h⟩

theorem ite {a b : Engine} {c : Prop} [Decidable c] (ha : Claims e a) (hb : Claims e b) :
    Claims e (if c then a else b) := by
  split
  · exact ha
  · exact hb

/-- A stage done only when `c` holds claims only if it does. -/
theorem ite_stage {x y : Engine} {c : Prop} [Decidable c] (hx : Claims e x) (hy : Claims x y) :
    Claims e (if c then y else x) :=
  Claims.ite (hx.trans hy) hx

end Claims

theorem claims_spawn (e : Engine) {j : Job} (hj : j.fetchKey? = none) : Claims e (e.spawn j) :=
  ⟨[], by simp [spawn], by simp [hj], id⟩

theorem claims_foldl {α : Type} {f : Engine → α → Engine} (hf : ∀ e a, Claims e (f e a)) :
    ∀ (l : List α) (e : Engine), Claims e (l.foldl f e)
  | [], e => Claims.refl e
  | a :: l, e => (hf e a).trans (claims_foldl hf l (f e a))

theorem claims_scheduleSave (e : Engine) : Claims e e.scheduleSave := by
  unfold scheduleSave
  split
  · exact Claims.refl e
  · exact (Claims.of_eq rfl rfl).trans (claims_spawn _ rfl)

theorem claims_onNavigation (e : Engine) : Claims e e.onNavigation := by
  unfold onNavigation
  dsimp only
  split
  · exact (Claims.of_eq rfl rfl).trans (claims_spawn _ rfl)
  · exact Claims.of_eq rfl rfl

theorem ViewOf.claims (h : ViewOf e e') : Claims e e' := by
  obtain ⟨g, r, s, o, f, rfl⟩ := h
  exact Claims.of_eq rfl rfl

theorem claims_rebuildView (e : Engine) : Claims e e.rebuildView := (view_rebuildView e).claims

theorem claims_insertSession (e : Engine) (s : Session) : Claims e (e.insertSession s) :=
  (Claims.of_eq rfl rfl).trans (claims_rebuildView _)

/-! ### Claiming a fetch -/

section Claim

variable {id : String} {f : Field}

theorem beginFetch_refused (h : (e.beginFetch id f).2 = false) : (e.beginFetch id f).1 = e := by
  unfold beginFetch at h ⊢
  split
  · rfl
  · split
    · rfl
    · next hfresh hout => simp [hfresh, hout] at h

theorem beginFetch_granted (h : (e.beginFetch id f).2 = true) :
    (id, f) ∉ e.inFlight ∧ (e.beginFetch id f).1.inFlight = e.inFlight ++ [(id, f)] ∧
      (e.beginFetch id f).1.jobs = e.jobs := by
  unfold beginFetch at h ⊢
  split
  · next hfresh => simp [hfresh] at h
  · split
    · next hout => simp [hout] at h
    · next hout =>
      refine ⟨fun hk => hout ?_, rfl, rfl⟩
      simpa [isFetching] using hk

end Claim

theorem claims_spawn_claimed {id : String} {f : Field} {j : Job}
    (h : (e.beginFetch id f).2 = true) (hj : j.fetchKey? = some (id, f)) :
    Claims e ((e.beginFetch id f).1.spawn j) := by
  obtain ⟨hnot, hi, hjobs⟩ := beginFetch_granted h
  refine ⟨[(id, f)], by simp [spawn, hi], ?_, fun hn => ?_⟩
  · rw [outstanding_spawn, hj]
    simp [outstanding, hjobs]
  · simp only [spawn, hi]
    exact List.nodup_append_comm.mpr (List.nodup_cons.mpr ⟨hnot, hn⟩)

theorem claims_claim (e : Engine) (id : String) (f : Field) {j : Job}
    (hj : j.fetchKey? = some (id, f)) :
    Claims e (if (e.beginFetch id f).2 then (e.beginFetch id f).1.spawn j
      else (e.beginFetch id f).1) := by
  split
  · next h => exact claims_spawn_claimed h hj
  · next h =>
    rw [beginFetch_refused (Bool.eq_false_iff.mpr h)]
    exact Claims.refl e

theorem claims_fetchPreview (e : Engine) (id : String) : Claims e (e.fetchPreview id) := by
  have hgranted := @beginFetch_granted e id .preview
  have hrefused := @beginFetch_refused e id .preview
  rcases hb : e.beginFetch id .preview with ⟨e₁, claimed⟩
  simp only [hb] at hgranted hrefused
  simp only [fetchPreview, hb]
  cases claimed
  · rw [hrefused rfl]
    exact Claims.refl e
  · obtain ⟨hnot, hi, hjobs⟩ := hgranted rfl
    simp only [Bool.not_true, Bool.false_eq_true, if_false]
    split
    · next s _ =>
      simpa only [hb] using claims_spawn_claimed (e := e)
        (j := .capturePreview id s.paneName e₁.config.engine.previewLines) (by rw [hb]) rfl
    · -- the session is gone: the claim is given back at once
      refine Claims.of_eq ?_ hjobs
      simp only [endFetch, hi, List.filter_append]
      rw [List.filter_eq_self.mpr fun k hk => ?_]
      · simp
      · exact bne_iff_ne.mpr fun hk' => hnot (hk' ▸ hk)

theorem claims_fetchSideData (e : Engine) (id : String) : Claims e (e.fetchSideData id) := by
  unfold fetchSideData
  split
  · exact Claims.refl e
  · split
    · exact claims_fetchPreview e id
    · refine (claims_fetchPreview e id).trans ((claims_claim _ _ _ rfl).trans
        ((claims_claim _ _ _ rfl).trans (claims_claim _ _ _ rfl)))

/-! ### Handlers that only claim fetches -/

theorem claims_showBanner (e : Engine) (text : String) : Claims e (e.showBanner text) :=
  Claims.of_eq rfl rfl

theorem claims_cacheSet (e : Engine) (id : String) (f : Field) (v : CacheValue) :
    Claims e (e.cacheSet id f v) :=
  Claims.of_eq rfl rfl

theorem claims_cacheDrop (e : Engine) (id : String) (f : Field) : Claims e (e.cacheDrop id f) :=
  Claims.of_eq rfl rfl

theorem claims_modifySession (e : Engine) (id : String) (f : Session → Session) :
    Claims e (e.modifySession id f) :=
  Claims.of_eq rfl rfl

theorem claims_onPreviewDebounce (e : Engine) (id : String) :
    Claims e (e.onPreviewDebounce id) := by
  unfold onPreviewDebounce
  split
  · exact Claims.refl e
  · exact (Claims.of_eq rfl rfl).trans (claims_fetchSideData _ _)

theorem claims_onStatusUpdate (e : Engine) (id : String) : Claims e (e.onStatusUpdate id) := by
  unfold onStatusUpdate
  split
  · exact Claims.refl e
  · exact (claims_modifySession _ _ _).trans ((claims_cacheDrop _ _ _).trans
      ((claims_fetchPreview _ _).trans (claims_scheduleSave _)))

theorem claims_maintainLogs (e : Engine) : Claims e e.maintainLogs := by
  unfold maintainLogs
  split
  · exact Claims.refl e
  · dsimp only
    split
    · exact (Claims.of_eq rfl rfl).trans (claims_spawn _ rfl)
    · split
      · exact (Claims.of_eq rfl rfl).trans (claims_spawn _ rfl)
      · exact Claims.of_eq rfl rfl

theorem claims_probeIfDue (e : Engine) : Claims e e.probeIfDue := by
  unfold probeIfDue
  split
  · exact Claims.refl e
  · dsimp only
    refine Claims.ite_stage (Claims.of_eq rfl rfl) ?_
    exact (Claims.of_eq rfl rfl).trans (claims_spawn _ rfl)

theorem claims_applyProbe (e : Engine) (p : Probe) : Claims e (e.applyProbe p) := by
  unfold applyProbe
  split
  · exact Claims.refl e
  · split
    · exact Claims.refl e
    · split
      · exact (Claims.of_eq rfl rfl).trans (claims_modifySession _ _ _)
      · exact (Claims.of_eq rfl rfl).trans (claims_modifySession _ _ _)

theorem claims_onStatusesProbed (e : Engine) (result : Except Error (List Probe)) :
    Claims e (e.onStatusesProbed result) := by
  unfold onStatusesProbed
  dsimp only
  split
  · exact (Claims.of_eq rfl rfl).trans (claims_foldl claims_applyProbe _ _)
  · exact Claims.of_eq rfl rfl

theorem claims_onHookStatus (e : Engine) (ev : HookEvent) : Claims e (e.onHookStatus ev) := by
  unfold onHookStatus
  dsimp only
  split
  · exact Claims.refl e
  · refine Claims.ite_stage ?_ (claims_scheduleSave _)
    refine Claims.ite_stage ?_ ((claims_cacheDrop _ _ _).trans (claims_fetchPreview _ _))
    exact Claims.of_eq rfl rfl

theorem claims_startReload (e : Engine) : Claims e e.startReload :=
  (Claims.of_eq rfl rfl).trans (claims_spawn _ rfl)

theorem claims_noteStored (e : Engine) (s : Session) (stored : Except Error Unit) :
    Claims e (e.noteStored s stored) := by
  unfold noteStored
  split
  · exact Claims.refl e
  · exact claims_showBanner _ _

/-! ### Calls on the view -/

theorem claims_selectSession (e : Engine) (id : String) : Claims e (e.selectSession id).1 := by
  unfold selectSession
  split
  · next e' h => exact (view_placeCursor? h).claims.trans (claims_onNavigation _)
  · split
    · exact Claims.refl e
    · dsimp only
      split
      · next e' h =>
        exact (Claims.of_eq rfl rfl).trans ((view_placeCursor? h).claims.trans
          ((claims_scheduleSave _).trans (claims_onNavigation _)))
      · exact Claims.of_eq rfl rfl

theorem claims_selectGroup (e : Engine) (path : String) : Claims e (e.selectGroup path).1 := by
  unfold selectGroup
  split
  · next e' h => exact (view_placeCursor? h).claims.trans (claims_onNavigation _)
  · exact Claims.refl e

theorem claims_toggleGroup (e : Engine) (path : String) : Claims e (e.toggleGroup path) := by
  unfold toggleGroup
  split
  · exact Claims.refl e
  · dsimp only
    refine Claims.trans ?_ ((claims_scheduleSave _).trans (claims_onNavigation _))
    split
    · next e' h => exact (Claims.of_eq rfl rfl).trans (view_placeCursor? h).claims
    · exact (Claims.of_eq rfl rfl).trans (view_placeOrClamp _ _).claims

theorem claims_renameSession (e : Engine) (id title : String) :
    Claims e (e.renameSession id title).1 := by
  unfold renameSession
  split
  · exact Claims.refl e
  · dsimp only
    refine Claims.trans ?_ (Claims.of_eq rfl rfl)
    have hrename := (claims_modifySession e id fun s => { s with title }).trans
      (claims_rebuildView _)
    exact Claims.ite (hrename.trans (Claims.of_eq rfl rfl))
      (hrename.trans (claims_scheduleSave _))

theorem claims_moveCursor (e : Engine) (delta : Int) : Claims e (e.moveCursor delta) := by
  unfold moveCursor
  split
  · exact Claims.refl e
  · refine Claims.trans ?_ (claims_onNavigation _)
    exact (Claims.of_eq rfl rfl).trans (view_ensureVisible _).claims

theorem claims_call (e : Engine) (c : Call) : Claims e (e.call c) := by
  cases c with
  | moveCursor delta => exact claims_moveCursor e delta
  | selectSession id => exact claims_selectSession e id
  | selectGroup path => exact claims_selectGroup e path
  | toggleGroup path => exact claims_toggleGroup e path
  | setHeight height => exact (Claims.of_eq rfl rfl).trans (view_ensureVisible _).claims
  | rename id title => exact claims_renameSession e id title

/-! ### Sessions added, restored and reloaded -/

theorem claims_addSession (e : Engine) (s : Session) (anim : Animation)
    (stored : Except Error Unit) : Claims e (e.addSession s anim stored) := by
  cases h : e.reloading
  · rw [addSession_of_idle s anim stored h]
    refine Claims.trans ?_ (claims_scheduleSave _)
    refine Claims.trans ?_ (claims_selectSession _ _)
    refine Claims.trans ?_ (Claims.of_eq rfl rfl)
    exact (claims_noteStored e s stored).trans (claims_insertSession _ _)
  · rw [addSession_of_reloading s anim stored h]
    exact (claims_noteStored e s stored).trans (Claims.of_eq rfl rfl)

theorem claims_restoreSession (e : Engine) (s : Session) (stored : Except Error Unit) :
    Claims e (e.restoreSession s stored) := by
  rw [restoreSession_eq]
  dsimp only
  refine Claims.trans ?_ (claims_spawn _ rfl)
  refine Claims.trans ?_ (claims_scheduleSave _)
  refine Claims.trans ?_ (claims_selectSession _ _)
  refine Claims.trans ?_ (claims_cacheDrop _ _ _)
  refine Claims.trans ?_ (Claims.of_eq rfl rfl)
  refine Claims.trans ?_ (claims_insertSession _ _)
  exact (claims_noteStored e s stored).trans (Claims.of_eq rfl rfl)

theorem claims_install (e : Engine) (snap : Snapshot) (r : Restore) :
    Claims e (e.install snap r).1 := by
  obtain ⟨g, rs, sel, off, c, f, h⟩ := install_fst e snap r
  rw [h]
  exact Claims.of_eq rfl rfl

theorem claims_foldl_insertKept (l : List Session) (acc : Engine × Bool) :
    Claims acc.1 (l.foldl insertKept acc).1 := by
  induction l generalizing acc with
  | nil => exact Claims.refl _
  | cons s l ih =>
    refine Claims.trans ?_ (ih _)
    unfold insertKept
    split
    · exact Claims.refl _
    · exact claims_insertSession _ _

theorem claims_keepForceSaved (e : Engine) : Claims e e.keepForceSaved := by
  rw [keepForceSaved_eq]
  have hfold := (Claims.of_eq rfl rfl).trans
    (claims_foldl_insertKept e.forceSaved ({ e with forceSaved := [] }, false))
  exact Claims.ite (hfold.trans (claims_scheduleSave _)) hfold

theorem claims_fetchSelected (e : Engine) :
    Claims e (match e.selectedId? with
      | some id => e.fetchSideData id
      | none => e) := by
  split
  · exact claims_fetchSideData _ _
  · exact Claims.refl e

theorem claims_finishReload (e : Engine) (version : Nat) (result : Except Error Snapshot) :
    Claims e (e.finishReload version result) := by
  by_cases hcur : version = e.reloadVersion ∧ e.reloading = true
  · cases result with
    | error err =>
      rw [finishReload_error hcur.1 hcur.2 err]
      refine Claims.trans ?_ (claims_keepForceSaved _)
      exact (Claims.of_eq rfl rfl).trans (Claims.ite (Claims.refl _) (claims_showBanner _ _))
    | ok snap =>
      obtain ⟨r, h⟩ := finishReload_ok hcur.1 hcur.2 snap
      rw [h]
      dsimp only
      -- the snapshot goes in, then the selection's side data is fetched
      have hrestore : Claims e { e with restore := none } := Claims.of_eq rfl rfl
      have hin : Claims e { ({ e with restore := none }.install snap r).1 with
          reloading := false }.dropLandedDeletes :=
        (hrestore.trans (claims_install _ snap r)).trans (Claims.of_eq rfl rfl)
      have hfetch := hin.trans (claims_fetchSelected _)
      exact Claims.ite (hfetch.trans (claims_scheduleSave _)) hfetch
  · rw [finishReload_of_stale result hcur]
    exact Claims.refl e

theorem claims_onDeletesPersisted (e : Engine) (ids : List String) (result : Except Error Unit) :
    Claims e (e.onDeletesPersisted ids result) := by
  obtain ⟨banner, pd, h⟩ := onDeletesPersisted_eq (e := e) ids result
  rw [h]
  exact Claims.of_eq rfl rfl

/-! ### Results of fetches -/

theorem claims_onPreviewCaptured (e : Engine) (id : String)
    (result : Except Error (Option String)) :
    Claims (e.endFetch id .preview) (e.onPreviewCaptured id result) := by
  unfold onPreviewCaptured
  dsimp only
  split
  · exact Claims.refl _
  · split
    · exact claims_cacheSet _ _ _ _
    · exact claims_cacheDrop _ _ _
    · exact Claims.refl _

theorem claims_onDirtyChecked (e : Engine) (id : String) (result : Except Error Bool) :
    Claims (e.endFetch id .worktreeDirty) (e.onDirtyChecked id result) := by
  unfold onDirtyChecked
  dsimp only
  split
  · exact Claims.refl _
  · split
    · exact claims_cacheSet _ _ _ _
    · exact claims_showBanner _ _

theorem claims_onRemoteChecked (e : Engine) (id : String) (result : Except Error String) :
    Claims (e.endFetch id .worktreeRemote) (e.onRemoteChecked id result) := by
  unfold onRemoteChecked
  dsimp only
  split
  · exact Claims.refl _
  · split
    · exact claims_cacheSet _ _ _ _
    · exact claims_showBanner _ _

theorem claims_onReviewFetched (e : Engine) (id : String)
    (result : Except Error (Option Review)) :
    Claims (e.endFetch id .reviewStatus) (e.onReviewFetched id result) := by
  unfold onReviewFetched
  dsimp only
  split
  · exact Claims.refl _
  · split
    · exact claims_showBanner _ _
    · split
      · exact claims_cacheSet _ _ _ _
      · split
        · refine Claims.trans ?_ (claims_scheduleSave _)
          exact Claims.of_eq rfl rfl
        · exact claims_cacheSet _ _ _ _

theorem claims_react_result {m : Message} {k : String × Field} (hm : m.fetchKey? = some k)
    (e : Engine) (stored : Except Error Unit) :
    Claims (e.endFetch k.1 k.2) (e.react m stored) := by
  cases m <;> simp only [Message.fetchKey?, reduceCtorEq, Option.some.injEq] at hm <;> subst hm
  case previewCaptured id r => exact claims_onPreviewCaptured e id r
  case dirtyChecked id r => exact claims_onDirtyChecked e id r
  case remoteChecked id r => exact claims_onRemoteChecked e id r
  case reviewFetched id r => exact claims_onReviewFetched e id r

/-! ### Steps that take fetches off the list early -/

/-- `e'` takes fetches of sessions that `gone` names off the in-flight list, leaves the rest in
order, and queues no fetch. -/
def Releases (gone : String → Prop) (e e' : Engine) : Prop :=
  ∃ keep : String × Field → Bool, e'.inFlight = e.inFlight.filter keep ∧
    (∀ k ∈ e.inFlight, keep k = false → gone k.1) ∧ e'.outstanding = e.outstanding

section Releases

variable {gone : String → Prop}

theorem Releases.refl (e : Engine) : Releases gone e e :=
  ⟨fun _ => true, (List.filter_eq_self.mpr fun _ _ => rfl).symm, fun _ _ h => by simp at h, rfl⟩

theorem Releases.trans (h₁ : Releases gone e e₁) (h₂ : Releases gone e₁ e') :
    Releases gone e e' := by
  obtain ⟨keep₁, hi₁, hg₁, ho₁⟩ := h₁
  obtain ⟨keep₂, hi₂, hg₂, ho₂⟩ := h₂
  refine ⟨fun k => keep₂ k && keep₁ k, by rw [hi₂, hi₁, List.filter_filter], fun k hk hkeep => ?_,
    ho₂.trans ho₁⟩
  cases h : keep₁ k
  · exact hg₁ k hk h
  · -- kept by the first step, so dropped by the second
    have hk₁ : k ∈ e₁.inFlight := by
      rw [hi₁]
      exact List.mem_filter.mpr ⟨hk, h⟩
    exact hg₂ k hk₁ (by simpa [h] using hkeep)

theorem Releases.claims (h : Releases gone e e') (hg : ∀ k ∈ e.inFlight, ¬gone k.1) :
    Claims e e' := by
  obtain ⟨keep, hi, hgone, ho⟩ := h
  have hall : e.inFlight.filter keep = e.inFlight :=
    List.filter_eq_self.mpr fun k hk => by
      cases hkeep : keep k
      · exact absurd (hgone k hk hkeep) (hg k hk)
      · rfl
  exact ⟨[], by rw [hi, hall, List.append_nil], by rw [ho, List.append_nil],
    fun hn => by rw [hi, hall]; exact hn⟩

end Releases

theorem releases_dropSession (e : Engine) (t : Session) :
    Releases (· = t.id) e (e.dropSession t) :=
  ⟨fun k => k.1 != t.id, rfl, fun k _ hk => by simpa using hk, rfl⟩

theorem releases_foldl_dropFound (l : List String) (acc : Engine × List Session) :
    Releases (· ∈ l) acc.1 (l.foldl dropFound acc).1 := by
  induction l generalizing acc with
  | nil => exact Releases.refl _
  | cons id l ih =>
    rw [List.foldl_cons]
    refine Releases.trans ?_ ((ih _).imp fun keep ⟨hi, hg, ho⟩ =>
      ⟨hi, fun k hk hkeep => List.mem_cons_of_mem id (hg k hk hkeep), ho⟩)
    unfold dropFound
    split
    · next t ht =>
      obtain ⟨keep, hi, hg, ho⟩ := releases_dropSession acc.1 t
      exact ⟨keep, hi, fun k hk hkeep => by
        rw [hg k hk hkeep, session?_id ht]
        exact List.mem_cons_self, ho⟩
    · exact Releases.refl _

theorem deleteSessions_fetches (e : Engine) (l : List String) (kill : Bool) :
    ∃ e₁, Releases (· ∈ l) e e₁ ∧ Claims e₁ (e.deleteSessions l kill) := by
  cases h : e.reloading
  · rw [deleteSessions_of_idle l kill h]
    refine ⟨_, releases_foldl_dropFound l (e, []), ?_⟩
    dsimp only
    split
    · exact Claims.refl _
    · -- the removal, the save and the kill queue no fetch
      have hsave : Claims (l.foldl dropFound (e, [])).1
          ((l.foldl dropFound (e, [])).1.rebuildView.persistDeletes
            ((l.foldl dropFound (e, [])).2.map (·.id))).scheduleSave := by
        refine Claims.trans ?_ (claims_scheduleSave _)
        refine Claims.trans ?_ (claims_spawn _ rfl)
        exact (claims_rebuildView _).trans (Claims.of_eq rfl rfl)
      exact Claims.ite (hsave.trans (claims_spawn _ rfl)) hsave
  · rw [deleteSessions_of_reloading l kill h]
    exact ⟨e, Releases.refl e, Claims.refl e⟩

/-! ### The two invariants -/

/-- The in-flight list names fetches that are out, each once. -/
structure FetchesOut (e : Engine) : Prop where
  nodup : e.inFlight.Nodup
  out : ∀ k ∈ e.inFlight, k ∈ e.outstanding

/-- The in-flight list names exactly the fetches that are out, and each of them is out once. -/
structure FetchesExact (e : Engine) : Prop where
  nodup : e.inFlight.Nodup
  perm : e.inFlight.Perm e.outstanding

theorem FetchesExact.out (h : e.FetchesExact) : e.FetchesOut :=
  ⟨h.nodup, fun _ hk => h.perm.subset hk⟩

theorem claims_clock (e : Engine) (clock : Nat) : Claims e { e with clock } := Claims.of_eq rfl rfl

theorem Claims.out (h : Claims e e') (ho : e.FetchesOut) : e'.FetchesOut := by
  obtain ⟨ks, hi, hq, hn⟩ := h
  refine ⟨hn ho.nodup, fun k hk => ?_⟩
  rw [hi] at hk
  rw [hq]
  rcases List.mem_append.mp hk with hk | hk
  · exact List.mem_append_left _ (ho.out k hk)
  · exact List.mem_append_right _ hk

theorem Claims.exact (h : Claims e e') (hx : e.FetchesExact) : e'.FetchesExact := by
  obtain ⟨ks, hi, hq, hn⟩ := h
  exact ⟨hn hx.nodup, by rw [hi, hq]; exact hx.perm.append_right ks⟩

theorem Releases.out {gone : String → Prop} (h : Releases gone e e') (ho : e.FetchesOut) :
    e'.FetchesOut := by
  obtain ⟨keep, hi, -, hq⟩ := h
  refine ⟨hi ▸ ho.nodup.filter keep, fun k hk => ?_⟩
  rw [hi] at hk
  rw [hq]
  exact ho.out k (List.mem_of_mem_filter hk)

/-! ### The tick -/

/-- Every fetch on the in-flight list is of a session the engine holds. -/
def Held (e : Engine) : Prop := ∀ k ∈ e.inFlight, (e.session? k.1).isSome

theorem session?_congr (hs : e'.sessions = e.sessions) (id : String) :
    e'.session? id = e.session? id := by
  unfold session?
  rw [hs]

theorem Held.of_subset (h : e.Held) (hs : e'.sessions = e.sessions)
    (hi : ∀ k ∈ e'.inFlight, k ∈ e.inFlight) : e'.Held := by
  intro k hk
  rw [session?_congr hs]
  exact h k (hi k hk)

theorem Held.of_eq (h : e.Held) (hs : e'.sessions = e.sessions)
    (hi : e'.inFlight = e.inFlight) : e'.Held :=
  h.of_subset hs fun _ hk => hi ▸ hk

theorem beginFetch_sessions (e : Engine) (id : String) (f : Field) :
    (e.beginFetch id f).1.sessions = e.sessions := by
  unfold beginFetch
  split
  · rfl
  · split <;> rfl

theorem held_fetchPreview (h : e.Held) (id : String) : (e.fetchPreview id).Held := by
  have hgranted := @beginFetch_granted e id .preview
  have hrefused := @beginFetch_refused e id .preview
  have hsess := beginFetch_sessions e id .preview
  rcases hb : e.beginFetch id .preview with ⟨e₁, claimed⟩
  simp only [hb] at hgranted hrefused hsess
  simp only [fetchPreview, hb]
  cases claimed
  · rw [hrefused rfl]
    exact h
  · obtain ⟨hnot, hi, -⟩ := hgranted rfl
    simp only [Bool.not_true, Bool.false_eq_true, if_false]
    split
    · next s hs =>
      intro k hk
      simp only [spawn, hi, List.mem_append, List.mem_singleton] at hk
      rcases hk with hk | rfl
      · rw [@session?_congr e (e₁.spawn _) hsess]
        exact h k hk
      · exact Option.isSome_iff_exists.mpr ⟨s, hs⟩
    · -- the claim is given back at once
      refine Held.of_subset h hsess fun k hk => ?_
      simp only [endFetch, hi, List.filter_append, List.mem_append, List.mem_filter] at hk
      rcases hk with hk | hk
      · exact hk.1
      · simp at hk

theorem held_foldl_fetchPreview (l : List String) (h : e.Held) : (l.foldl fetchPreview e).Held := by
  induction l generalizing e with
  | nil => exact h
  | cons id l ih => exact ih (held_fetchPreview h id)

/-- A chore of the tick: it keeps the in-flight list naming fetches that are out, and while
every fetch in flight is of a held session, it only claims fetches, of held sessions. -/
def Prunes (e e' : Engine) : Prop :=
  (e.FetchesOut → e'.FetchesOut) ∧ (e.Held → Claims e e' ∧ e'.Held)

theorem Prunes.trans (h₁ : Prunes e e₁) (h₂ : Prunes e₁ e') : Prunes e e' :=
  ⟨h₂.1 ∘ h₁.1, fun h => ⟨((h₁.2 h).1).trans (h₂.2 (h₁.2 h).2).1, (h₂.2 (h₁.2 h).2).2⟩⟩

theorem Prunes.of_claims (hc : Claims e e') (hh : e.Held → e'.Held) : Prunes e e' :=
  ⟨hc.out, fun h => ⟨hc, hh h⟩⟩

/-- A chore that leaves the sessions and the fetches alone. -/
theorem Prunes.of_eq (hs : e'.sessions = e.sessions) (hi : e'.inFlight = e.inFlight)
    (hj : e'.jobs = e.jobs) : Prunes e e' :=
  Prunes.of_claims (Claims.of_eq hi hj) fun h => h.of_eq hs hi

theorem Prunes.ite_stage {x y : Engine} {c : Prop} [Decidable c] (hx : Prunes e x)
    (hy : Prunes x y) : Prunes e (if c then y else x) := by
  split
  · exact hx.trans hy
  · exact hx

theorem prunes_animate (e : Engine) : Prunes e e.animate := by
  unfold animate
  split
  · exact Prunes.of_eq rfl rfl rfl
  · exact Prunes.of_claims ((Claims.of_eq rfl rfl).trans (claims_foldl claims_fetchPreview _ _))
      fun h => held_foldl_fetchPreview _ (h.of_eq rfl rfl)

theorem prunes_persistViewState (e : Engine) : Prunes e e.persistViewState := by
  unfold persistViewState
  dsimp only
  split
  · exact Prunes.of_eq rfl rfl rfl
  · exact Prunes.of_claims ((Claims.of_eq rfl rfl).trans (claims_spawn _ rfl))
      fun h => h.of_eq rfl rfl

theorem prunes_maintainLogs (e : Engine) : Prunes e e.maintainLogs :=
  Prunes.of_claims (claims_maintainLogs e) fun h => by
    unfold maintainLogs
    split
    · exact h
    · dsimp only
      split
      · exact h.of_eq rfl rfl
      · split
        · exact h.of_eq rfl rfl
        · exact h.of_eq rfl rfl

theorem prunes_prune (e : Engine) : Prunes e e.prune := by
  have hrel : Releases (fun id => (e.session? id).isSome = false) e e.prune := by
    refine ⟨fun k => e.sessions.any (·.id == k.1), rfl, fun k _ hk => ?_, rfl⟩
    have hnone : k.1 ∉ e.sessions.map (·.id) := by simpa using hk
    rw [← session?_eq_none_iff] at hnone
    simp only [hnone, Option.isSome_none]
  refine ⟨hrel.out, fun h => ⟨hrel.claims fun k hk hgone => ?_, ?_⟩⟩
  · rw [h k hk] at hgone
    exact Bool.noConfusion hgone
  · exact h.of_subset rfl fun k hk => List.mem_of_mem_filter hk

theorem prunes_limits (e : Engine) (l : TickLimits) : Prunes e { e with limits := l } :=
  Prunes.of_eq rfl rfl rfl

theorem prunes_chores (e : Engine) : Prunes e e.chores := by
  unfold chores
  dsimp only
  -- the chores, peeled from the last one in
  refine Prunes.ite_stage ?_ (prunes_prune _)
  refine Prunes.trans ?_ (prunes_limits _ _)
  refine Prunes.trans ?_ (prunes_maintainLogs _)
  refine Prunes.ite_stage ?_ (prunes_persistViewState _)
  refine Prunes.ite_stage ?_ (Prunes.of_eq rfl rfl rfl)
  refine Prunes.trans ?_ (prunes_animate _)
  exact Prunes.of_eq rfl rfl rfl

theorem claims_tickTail (e : Engine) : Claims e.chores e.tick := by
  unfold tick
  dsimp only
  refine Claims.ite (Claims.refl _) ?_
  exact Claims.ite ((claims_probeIfDue _).trans (claims_fetchSelected _)) (claims_probeIfDue _)

end Engine

/-! ### Handling a message -/

/-- Handling `m` may take a fetch off the in-flight list before its result comes: `m` deletes a
session with a fetch in flight, or is a tick while a fetch of a session that is gone is in
flight. -/
def Message.dropsFetch (e : Engine) : Message → Bool
  | .lifecycle (.deleted id _) => e.inFlight.any (·.1 == id)
  | .lifecycle (.bulkDeleted ids _) => e.inFlight.any (ids.contains ·.1)
  | .tick => e.inFlight.any fun k => (e.session? k.1).isNone
  | _ => false

namespace Engine

variable {e e' : Engine}

theorem fetches_of_claims {b : Bool} (h : Claims e e') :
    (e.FetchesOut → e'.FetchesOut) ∧ (b = false → Claims e e') :=
  ⟨h.out, fun _ => h⟩

theorem react_fetches (e : Engine) {m : Message} (hm : m.fetchKey? = none)
    (stored : Except Error Unit) :
    (e.FetchesOut → (e.react m stored).FetchesOut) ∧
      (m.dropsFetch e = false → Claims e (e.react m stored)) := by
  cases m with
  | storageChanged => exact fetches_of_claims (claims_startReload e)
  | lifecycle ev =>
    cases ev with
    | created s => exact fetches_of_claims (claims_addSession e s .launching stored)
    | forked s => exact fetches_of_claims (claims_addSession e s .forking stored)
    | deleted id kill =>
      obtain ⟨e₁, hr, hc⟩ := deleteSessions_fetches e [id] kill
      refine ⟨fun h => hc.out (hr.out h), fun hd => (hr.claims fun k hk hgone => ?_).trans hc⟩
      -- no fetch in flight is of the deleted session
      simp only [Message.dropsFetch, List.any_eq_false, beq_iff_eq] at hd
      exact hd k hk (List.mem_singleton.mp hgone)
    | bulkDeleted ids kill =>
      obtain ⟨e₁, hr, hc⟩ := deleteSessions_fetches e ids kill
      refine ⟨fun h => hc.out (hr.out h), fun hd => (hr.claims fun k hk hgone => ?_).trans hc⟩
      simp only [Message.dropsFetch, List.any_eq_false, List.contains_iff_mem] at hd
      exact hd k hk hgone
    | restored =>
      rcases react_restored e stored with ⟨s, -, he⟩ | ⟨-, he⟩
      · rw [he]
        exact fetches_of_claims (claims_restoreSession e s stored)
      · rw [he]
        exact fetches_of_claims (Claims.refl e)
  | statusUpdate id => exact fetches_of_claims (claims_onStatusUpdate e id)
  | tick =>
    have hp := prunes_chores e
    refine ⟨fun h => (claims_tickTail e).out (hp.1 h), fun hd => ?_⟩
    -- every fetch in flight is of a held session, so the pruning drops none
    have hheld : e.Held := by
      intro k hk
      simp only [Message.dropsFetch, List.any_eq_false] at hd
      exact Option.isSome_iff_ne_none.mpr (by simpa using hd k hk)
    exact (hp.2 hheld).1.trans (claims_tickTail e)
  | previewDebounce id => exact fetches_of_claims (claims_onPreviewDebounce e id)
  | hookStatus ev => exact fetches_of_claims (claims_onHookStatus e ev)
  | reloadLoaded v r => exact fetches_of_claims (claims_finishReload e v r)
  | previewCaptured id r => simp [Message.fetchKey?] at hm
  | dirtyChecked id r => simp [Message.fetchKey?] at hm
  | remoteChecked id r => simp [Message.fetchKey?] at hm
  | reviewFetched id r => simp [Message.fetchKey?] at hm
  | statusesProbed r => exact fetches_of_claims (claims_onStatusesProbed e r)
  | deletesPersisted ids r => exact fetches_of_claims (claims_onDeletesPersisted e ids r)
  | saveFailed text => exact fetches_of_claims (claims_showBanner _ _)
  | failure text => exact fetches_of_claims (claims_showBanner _ _)

/-! ### Results coming back -/

section Report

variable {i : Nat} {j : Job} {k : String × Field}

variable {e₀ : Engine}

theorem out_settle (hj : e.jobs[i]? = some j) (hk : j.fetchKey? = some k) (h : e.FetchesOut)
    (hi : e₀.inFlight = e.inFlight) (hq : e₀.jobs = e.jobs.eraseIdx i) :
    (e₀.endFetch k.1 k.2).FetchesOut := by
  have hperm := perm_filterMap_eraseIdx Job.fetchKey? hj
  rw [hk] at hperm
  refine ⟨by simp only [endFetch, hi]; exact h.nodup.filter _, fun k' hk' => ?_⟩
  simp only [endFetch, hi, List.mem_filter, bne_iff_ne, ne_eq] at hk'
  have hout := hperm.subset (h.out k' hk'.1)
  simp only [Option.toList_some, List.singleton_append, List.mem_cons] at hout
  show k' ∈ e₀.jobs.filterMap Job.fetchKey?
  rw [hq]
  exact hout.resolve_left hk'.2

theorem exact_settle (hj : e.jobs[i]? = some j) (hk : j.fetchKey? = some k)
    (h : e.FetchesExact) (hi : e₀.inFlight = e.inFlight) (hq : e₀.jobs = e.jobs.eraseIdx i) :
    (e₀.endFetch k.1 k.2).FetchesExact := by
  have hperm := perm_filterMap_eraseIdx Job.fetchKey? hj
  rw [hk, Option.toList_some, List.singleton_append] at hperm
  -- the fetch is out, so it is in flight once; taking it off both sides keeps them equal
  have hin : k ∈ e.inFlight := h.perm.symm.subset (hperm.symm.subset List.mem_cons_self)
  have herase : e.inFlight.erase k = e.inFlight.filter (· != k) := h.nodup.erase_eq_filter k
  refine ⟨by simp only [endFetch, hi]; exact h.nodup.filter _, ?_⟩
  show (e₀.inFlight.filter (· != k)).Perm (e₀.jobs.filterMap Job.fetchKey?)
  rw [hi, hq, ← herase]
  exact (((List.perm_cons_erase hin).symm.trans h.perm).trans hperm).cons_inv

theorem outstanding_finish (hj : e.jobs[i]? = some j) (hn : j.fetchKey? = none) :
    e.outstanding.Perm { e with jobs := e.jobs.eraseIdx i }.outstanding := by
  have hperm := perm_filterMap_eraseIdx Job.fetchKey? hj
  rwa [hn, Option.toList_none, List.nil_append] at hperm

end Report

/-! ### Every step and every run -/

end Engine

/-- The event may take a fetch off the in-flight list before its result comes. -/
def FetchEvent.dropsFetch (e : Engine) : FetchEvent → Bool
  | .input (.message m _ _) => m.dropsFetch e
  | _ => false

namespace Engine

variable {e : Engine}

theorem FetchesOut.step (h : e.FetchesOut) (ev : FetchEvent) :
    (e.fetchStep ev).FetchesOut := by
  cases ev with
  | input i =>
    cases i with
    | message m stored clock =>
      simp only [Engine.fetchStep]
      split
      · exact h
      · next hm =>
        exact (react_fetches { e with clock } (Option.not_isSome_iff_eq_none.mp hm) stored).1
          ((claims_clock e clock).out h)
    | call c clock => exact (claims_call { e with clock } c).out ((claims_clock e clock).out h)
  | finish i =>
    simp only [Engine.fetchStep]
    split
    · next j hj =>
      split
      · next hn =>
        have hperm := outstanding_finish hj (Option.isNone_iff_eq_none.mp hn)
        exact ⟨h.nodup, fun k hk => hperm.subset (h.out k hk)⟩
      · exact h
    · exact h
  | report i m clock =>
    simp only [Engine.fetchStep]
    split
    · next j hj =>
      split
      · next hc =>
        -- the result answers the fetch it comes from
        simp only [Bool.and_eq_true, Option.isSome_iff_exists, beq_iff_eq] at hc
        obtain ⟨⟨k, hk⟩, hkm⟩ := hc
        exact (claims_react_result (hkm ▸ hk) _ _).out (out_settle hj hk h rfl rfl)
      · exact h
    · exact h

theorem FetchesExact.step (h : e.FetchesExact) (ev : FetchEvent)
    (hd : ev.dropsFetch e = false) : (e.fetchStep ev).FetchesExact := by
  cases ev with
  | input i =>
    cases i with
    | message m stored clock =>
      simp only [Engine.fetchStep]
      split
      · exact h
      · next hm =>
        exact ((claims_clock e clock).trans ((react_fetches { e with clock }
          (Option.not_isSome_iff_eq_none.mp hm) stored).2 hd)).exact h
    | call c clock => exact ((claims_clock e clock).trans (claims_call { e with clock } c)).exact h
  | finish i =>
    simp only [Engine.fetchStep]
    split
    · next j hj =>
      split
      · next hn => exact ⟨h.nodup, h.perm.trans (outstanding_finish hj (Option.isNone_iff_eq_none.mp hn))⟩
      · exact h
    · exact h
  | report i m clock =>
    simp only [Engine.fetchStep]
    split
    · next j hj =>
      split
      · next hc =>
        simp only [Bool.and_eq_true, Option.isSome_iff_exists, beq_iff_eq] at hc
        obtain ⟨⟨k, hk⟩, hkm⟩ := hc
        exact (claims_react_result (hkm ▸ hk) _ _).exact (exact_settle hj hk h rfl rfl)
      · exact h
    · exact h

/-- Every run keeps the in-flight list naming fetches that are out, each once. -/
theorem FetchesOut.run (h : e.FetchesOut) (evs : List FetchEvent) :
    (e.fetchRun evs).FetchesOut := by
  induction evs generalizing e with
  | nil => exact h
  | cons ev evs ih => exact ih (h.step ev)

/-- Some event of the run, in the state it happens to, takes a fetch off the in-flight list
before its result comes. -/
def dropsFetchAlong : Engine → List FetchEvent → Bool
  | _, [] => false
  | e, ev :: evs => ev.dropsFetch e || (e.fetchStep ev).dropsFetchAlong evs

/-- A run in which no fetch is taken off the in-flight list early keeps the list naming exactly
the fetches that are out. -/
theorem FetchesExact.run (h : e.FetchesExact) (evs : List FetchEvent)
    (hd : e.dropsFetchAlong evs = false) : (e.fetchRun evs).FetchesExact := by
  induction evs generalizing e with
  | nil => exact h
  | cons ev evs ih =>
    simp only [dropsFetchAlong, Bool.or_eq_false_iff] at hd
    exact ih (h.step ev hd.1) hd.2

theorem claims_boot (e : Engine) (snap : Snapshot) (v : ViewState) : Claims e (e.boot snap v) := by
  have hpre : Claims e { (e.install snap (Restore.ofViewState v)).1 with
      lastViewState := (e.install snap (Restore.ofViewState v)).1.viewState } :=
    (claims_install _ _ _).trans (Claims.of_eq (e := (e.install snap (Restore.ofViewState v)).1)
      rfl rfl)
  unfold boot
  dsimp only
  split
  · exact hpre.trans (claims_fetchSideData _ _)
  · exact hpre

theorem exact_boot (config : Config) (registry : Registry) (mux : Mux) (git : GitLookup)
    (now : Nat) (snap : Snapshot) (v : ViewState) :
    ((Engine.new config registry mux git now).boot snap v).FetchesExact :=
  (claims_boot _ snap v).exact ⟨List.nodup_nil, List.Perm.nil⟩

/-- From any registry contents and stored view, through any run, the in-flight list names only
fetches that are out, and none twice. -/
theorem fetches_out_after_boot (config : Config) (registry : Registry) (mux : Mux)
    (git : GitLookup) (now : Nat) (snap : Snapshot) (v : ViewState) (evs : List FetchEvent) :
    (((Engine.new config registry mux git now).boot snap v).fetchRun evs).FetchesOut :=
  (exact_boot config registry mux git now snap v).out.run evs

theorem FetchesExact.count_le_one (h : e.FetchesExact) (k : String × Field) :
    e.outstanding.count k ≤ 1 :=
  List.nodup_iff_count_le_one.mp (h.perm.nodup_iff.mp h.nodup) k

theorem FetchesExact.only_fetch (h : e.FetchesExact) {i : Nat} {j : Job} {k : String × Field}
    (hj : e.jobs[i]? = some j) (hk : j.fetchKey? = some k) :
    k ∉ (e.jobs.eraseIdx i).filterMap Job.fetchKey? := by
  have hperm := perm_filterMap_eraseIdx Job.fetchKey? hj
  rw [hk, Option.toList_some, List.singleton_append] at hperm
  -- the fetches out are apart, and `k` is one of them
  have hnodup : (k :: (e.jobs.eraseIdx i).filterMap Job.fetchKey?).Nodup :=
    hperm.nodup_iff.mp (h.perm.nodup_iff.mp h.nodup)
  exact (List.nodup_cons.mp hnodup).1

/-- From any registry contents and stored view, along a run in which no delete and no tick takes
a fetch off the in-flight list before its result comes, each session and field has at most one
fetch out, and is on the in-flight list exactly when it has one. -/
theorem one_fetch_out_per_field (config : Config) (registry : Registry) (mux : Mux)
    (git : GitLookup) (now : Nat) (snap : Snapshot) (v : ViewState) (evs : List FetchEvent)
    (hd : ((Engine.new config registry mux git now).boot snap v).dropsFetchAlong evs = false)
    (k : String × Field) :
    (((Engine.new config registry mux git now).boot snap v).fetchRun evs).outstanding.count k ≤ 1
      ∧ (k ∈ (((Engine.new config registry mux git now).boot snap v).fetchRun evs).inFlight ↔
        k ∈ (((Engine.new config registry mux git now).boot snap v).fetchRun evs).outstanding) := by
  have hx := (exact_boot config registry mux git now snap v).run evs hd
  exact ⟨hx.count_le_one k, hx.perm.mem_iff⟩

/-- A fresh engine on a registry that holds one session, `x`; booting selects `x` and sends out
the fetch of its preview. -/
def loneEngine : Engine :=
  (Engine.new {} ⟨"/r/sessions.json", "test"⟩ Mux.memory GitLookup.inert 0).boot
    { sessions := [{ id := "x", title := "victim", projectPath := "/p/x", createdAt := World.epoch }] }
    {}

/-- The boot fetch of the preview comes back and is handled: the preview is no longer out. -/
theorem lone_preview_answered :
    (loneEngine.fetchRun [.report 0 (.previewCaptured "x" (.ok (some "$ "))) 1]).outstanding.count
        ("x", .preview) ≤ 1 ∧
      (("x", .preview) ∈ (loneEngine.fetchRun
          [.report 0 (.previewCaptured "x" (.ok (some "$ "))) 1]).inFlight ↔
        ("x", .preview) ∈ (loneEngine.fetchRun
          [.report 0 (.previewCaptured "x" (.ok (some "$ "))) 1]).outstanding) :=
  one_fetch_out_per_field {} ⟨"/r/sessions.json", "test"⟩ Mux.memory GitLookup.inert 0 _ {} _
    (by cbv) _

/-- Without the proviso the list and the fetches part: deleting `x` takes its preview off the
in-flight list while the fetch is still out, and once the delete is undone a debounced preview
sends out a second fetch beside the first. -/
theorem second_preview_fetch_after_undo :
    ("x", Field.preview) ∈ (loneEngine.fetchRun
        [.input (.message (.lifecycle (.deleted "x" false)) (.ok ()) 0)]).outstanding ∧
      ("x", Field.preview) ∉ (loneEngine.fetchRun
        [.input (.message (.lifecycle (.deleted "x" false)) (.ok ()) 0)]).inFlight ∧
      (loneEngine.fetchRun [.input (.message (.lifecycle (.deleted "x" false)) (.ok ()) 0),
        .input (.message (.lifecycle .restored) (.ok ()) 0),
        .input (.message (.previewDebounce "x") (.ok ()) 0)]).outstanding.count
          ("x", .preview) = 2 := by
  refine ⟨?_, ?_, ?_⟩
  · cbv
    exact .head _
  · cbv
    exact List.not_mem_nil
  · cbv

/-- **A result answers the one fetch of its key.** Along a run in which no delete and no tick
takes a fetch off the in-flight list early, when the `i`-th queued job fetches `k`, no other
queued job fetches `k`. As this holds at every step, no fetch of `k` starts while an earlier one
is out, so the value the result of a fetch caches for `k` is that of the latest fetch of `k`. -/
theorem reported_fetch_alone (config : Config) (registry : Registry) (mux : Mux)
    (git : GitLookup) (now : Nat) (snap : Snapshot) (v : ViewState) (evs : List FetchEvent)
    (hd : ((Engine.new config registry mux git now).boot snap v).dropsFetchAlong evs = false)
    {i : Nat} {j : Job} {k : String × Field}
    (hj : (((Engine.new config registry mux git now).boot snap v).fetchRun evs).jobs[i]? = some j)
    (hk : j.fetchKey? = some k) :
    k ∉ ((((Engine.new config registry mux git now).boot snap v).fetchRun evs).jobs.eraseIdx
      i).filterMap Job.fetchKey? :=
  ((exact_boot config registry mux git now snap v).run evs hd).only_fetch hj hk

/-- The preview fetch sent out at boot is the only fetch of the preview of `x`. -/
theorem lone_preview_fetch_alone :
    loneEngine.dropsFetchAlong [] = false ∧
      (loneEngine.fetchRun []).jobs[0]? = some (.capturePreview "x" "deckhand_x" 120) ∧
      (Job.capturePreview "x" "deckhand_x" 120).fetchKey? = some ("x", .preview) ∧
      ("x", Field.preview) ∉ ((loneEngine.fetchRun []).jobs.eraseIdx 0).filterMap Job.fetchKey? := by
  have hj : (loneEngine.fetchRun []).jobs[0]? = some (.capturePreview "x" "deckhand_x" 120) := by
    cbv
  exact ⟨rfl, hj, rfl,
    reported_fetch_alone {} ⟨"/r/sessions.json", "test"⟩ Mux.memory GitLookup.inert 0 _ {} [] rfl
      hj rfl⟩

end Engine

end AgentDeck
