import AgentDeck.Proofs.Deck.Sound

/-!
What the engine owes the registry.

The registry is meant to hold what the engine holds: under each id the same session, its live
status aside, and the same tasks. `sessionTable` reads a list of sessions that way. Outside a
reload the engine keeps the two in step by queueing a save whenever it changes either:
`Engine.Owes` says that the save it would let write is queued, and `Engine.Carried` that every
such save writes what the engine holds now.

Most steps keep what the engine stores and queue only saves of it and jobs that leave the
registry alone (`Engine.Still`). Every handler outside a reload is such a step or ends owing a
save of what it holds (`Engine.settles_take`, `Engine.settles_call`).
-/

namespace AgentDeck

/-- The session as the registry and the engine are compared: its live status set aside. -/
def Session.stripStatus (s : Session) : Session := { s with status := .idle }

/-- Under each id, the first of the sessions with that id, its live status set aside. -/
def sessionTable (ss : List Session) (id : String) : Option Session :=
  (ss.find? (·.id == id)).map Session.stripStatus

section Table

variable {ss ss' : List Session} {x : String}

@[simp] theorem stripStatus_id (s : Session) : s.stripStatus.id = s.id := rfl

@[simp] theorem sessionTable_nil : sessionTable [] x = none := rfl

theorem sessionTable_cons (s : Session) :
    sessionTable (s :: ss) x = if s.id = x then some s.stripStatus else sessionTable ss x := by
  unfold sessionTable
  by_cases h : s.id = x <;> simp [h]

theorem sessionTable_append :
    sessionTable (ss ++ ss') x = (sessionTable ss x).or (sessionTable ss' x) := by
  induction ss with
  | nil => simp
  | cons s ss ih =>
    rw [List.cons_append, sessionTable_cons, sessionTable_cons, ih]
    split <;> rfl

theorem sessionTable_isSome : (sessionTable ss x).isSome ↔ x ∈ ss.map (·.id) := by
  simp [sessionTable, List.find?_isSome]

/-- Lists with one table hold the same ids. -/
theorem mem_ids_of_table (h : sessionTable ss' = sessionTable ss) :
    x ∈ ss'.map (·.id) ↔ x ∈ ss.map (·.id) := by
  rw [← sessionTable_isSome, ← sessionTable_isSome, h]

/-- Leaving out the sessions with the ids `ids` leaves out their rows. -/
theorem sessionTable_filter_ids (ids : List String) :
    sessionTable (ss.filter fun s => !ids.contains s.id) x =
      if x ∈ ids then none else sessionTable ss x := by
  induction ss with
  | nil => simp
  | cons s ss ih =>
    by_cases hs : s.id ∈ ids
    · rw [List.filter_cons_of_neg (by simp [hs]), ih, sessionTable_cons]
      by_cases hx : s.id = x
      · subst hx
        simp [hs]
      · simp [hx]
    · rw [List.filter_cons_of_pos (by simp [hs]), sessionTable_cons, sessionTable_cons, ih]
      by_cases hx : s.id = x
      · subst hx
        simp [hs]
      · simp [hx]

theorem sessionTable_map_modify (id : String) (f : Session → Session)
    (hid : ∀ s, s.id = id → (f s).id = id)
    (hfirst : ∀ s, ss.find? (·.id == id) = some s → (f s).stripStatus = s.stripStatus) :
    sessionTable (ss.map fun s => if s.id == id then f s else s) = sessionTable ss := by
  funext x
  -- the replacement keeps every id, so the first session with id `x` is found at the same place
  have hp : ((·.id == x) ∘ fun s : Session => if s.id == id then f s else s) = (·.id == x) := by
    funext s
    simp only [Function.comp]
    split
    · next h => rw [hid s (beq_iff_eq.mp h), ← beq_iff_eq.mp h]
    · rfl
  unfold sessionTable
  rw [List.find?_map, hp]
  cases hs : ss.find? (·.id == x) with
  | none => rfl
  | some s =>
    simp only [Option.map_some, Option.some.injEq]
    split
    · next h =>
      have hsx : s.id = x := beq_iff_eq.mp (List.find?_some (p := fun t : Session => t.id == x) hs)
      have hx : x = id := hsx.symm.trans (beq_iff_eq.mp h)
      subst hx
      exact hfirst s hs
    · rfl

end Table

/-- The save that the engine `e` would let write: scheduled under its reload version as its
latest save. -/
def Job.CurrentIn (e : Engine) : Job → Prop
  | .save v q .. => v = e.reloadVersion ∧ q = e.saveSeq
  | _ => False

/-- The job, if it is a save, writes what `e` holds: the same table and the same tasks. -/
def Job.Stores (e : Engine) : Job → Prop
  | .save _ _ sessions _ tasks => sessionTable sessions = sessionTable e.sessions ∧ tasks = e.tasks
  | _ => True

/-- A job that a step keeping what `e` stores may queue: a save of what `e` holds under its
reload version, or a job that leaves the registry alone. -/
def Job.Keeps (e : Engine) : Job → Prop
  | .save v q sessions _ tasks =>
    v = e.reloadVersion ∧ q ≤ e.saveSeq ∧ sessionTable sessions = sessionTable e.sessions ∧
      tasks = e.tasks
  | .load _ | .removeSessions _ => False
  | _ => True

/-- The job reads or writes the registry. -/
def Job.touchesRegistry : Job → Bool
  | .save .. | .load _ | .removeSessions _ => true
  | _ => false

theorem Job.keeps_of_inert {j : Job} (h : j.touchesRegistry = false) (e : Engine) : j.Keeps e := by
  cases j <;> simp_all [Job.touchesRegistry, Job.Keeps]

namespace Engine

/-- Every save that is still current writes what the engine holds. -/
def Carried (e : Engine) : Prop := ∀ j ∈ e.jobs, j.CurrentIn e → j.Stores e

/-- A save that is still current is queued. -/
def Owes (e : Engine) : Prop := ∃ j ∈ e.jobs, j.CurrentIn e

/-- The engine owes the registry a save of what it holds. -/
def Owing (e : Engine) : Prop := e.Owes ∧ e.Carried

/-- `e'` stores what `e` stores: the same table of sessions and the same tasks, under the same
reload state; it queued only `Keeps` jobs after the old ones, and still queues a save it
scheduled. -/
structure Still (e e' : Engine) : Prop where
  table : sessionTable e'.sessions = sessionTable e.sessions
  tasks : e'.tasks = e.tasks
  reloadVersion : e'.reloadVersion = e.reloadVersion
  reloading : e'.reloading = e.reloading
  saveSeq : e.saveSeq ≤ e'.saveSeq
  jobs : ∃ new, e'.jobs = e.jobs ++ new ∧ ∀ j ∈ new, j.Keeps e'
  owes : e.saveSeq < e'.saveSeq → e'.Owes

variable {e e₁ e' : Engine}

theorem keeps_of_still {j : Job} (hj : j.Keeps e) (h : Still e e') : j.Keeps e' := by
  cases j <;> simp only [Job.Keeps] at hj ⊢
  case save =>
    obtain ⟨hv, hq, hs, ht⟩ := hj
    exact ⟨hv.trans h.reloadVersion.symm, Nat.le_trans hq h.saveSeq, hs.trans h.table.symm,
      ht.trans h.tasks.symm⟩

theorem Still.owes_of_eq (h : Still e e') (hq : e.saveSeq = e'.saveSeq) (ho : e.Owes) :
    e'.Owes := by
  obtain ⟨new, hj, -⟩ := h.jobs
  obtain ⟨j, hmem, hcur⟩ := ho
  refine ⟨j, hj ▸ List.mem_append_left _ hmem, ?_⟩
  cases j <;> simp only [Job.CurrentIn] at hcur ⊢
  case save => exact ⟨hcur.1.trans h.reloadVersion.symm, hcur.2.trans hq⟩

theorem Still.owes' (h : Still e e') (ho : e.Owes) : e'.Owes := by
  rcases Nat.lt_or_eq_of_le h.saveSeq with hlt | heq
  · exact h.owes hlt
  · exact h.owes_of_eq heq ho

namespace Still

theorem refl (e : Engine) : Still e e :=
  ⟨rfl, rfl, rfl, rfl, Nat.le_refl _, ⟨[], by simp, by simp⟩,
    fun h => absurd h (Nat.lt_irrefl _)⟩

theorem trans (h₁ : Still e e₁) (h₂ : Still e₁ e') : Still e e' := by
  obtain ⟨n₁, hj₁, hk₁⟩ := h₁.jobs
  obtain ⟨n₂, hj₂, hk₂⟩ := h₂.jobs
  refine ⟨h₂.table.trans h₁.table, h₂.tasks.trans h₁.tasks,
    h₂.reloadVersion.trans h₁.reloadVersion, h₂.reloading.trans h₁.reloading,
    Nat.le_trans h₁.saveSeq h₂.saveSeq, ⟨n₁ ++ n₂, by rw [hj₂, hj₁, List.append_assoc], ?_⟩,
    fun hlt => ?_⟩
  · intro j hj
    rcases List.mem_append.mp hj with hj | hj
    · exact keeps_of_still (hk₁ j hj) h₂
    · exact hk₂ j hj
  · -- the save that was scheduled last is still queued
    rcases Nat.lt_or_eq_of_le h₂.saveSeq with hlt₂ | heq
    · exact h₂.owes hlt₂
    · exact h₂.owes_of_eq heq (h₁.owes (heq ▸ hlt))

/-- A change of fields that a save does not store is still. -/
theorem of_eq (hs : e'.sessions = e.sessions) (ht : e'.tasks = e.tasks)
    (hv : e'.reloadVersion = e.reloadVersion) (hr : e'.reloading = e.reloading)
    (hq : e'.saveSeq = e.saveSeq) (hj : e'.jobs = e.jobs) : Still e e' :=
  ⟨by rw [hs], ht, hv, hr, Nat.le_of_eq hq.symm, ⟨[], by simp [hj], by simp⟩,
    fun hlt => absurd (hq ▸ hlt) (Nat.lt_irrefl _)⟩

/-- Every save current after a still step writes what the engine holds, if every one current
before did. -/
theorem carried (h : Still e e') (hs : ∀ j ∈ e.jobs, j.SavedBefore e) (hc : e.Carried) :
    e'.Carried := by
  obtain ⟨new, hj, hk⟩ := h.jobs
  intro j hmem hcur
  rw [hj] at hmem
  rcases List.mem_append.mp hmem with hmem | hmem
  · -- an old save is current only if the counter did not move, and then it was current before
    have hb := hs j hmem
    have hst := hc j hmem
    cases j with
    | save v q sessions tree tasks =>
      simp only [Job.CurrentIn] at hcur
      simp only [Job.SavedBefore] at hb
      have hcur' : Job.CurrentIn e (.save v q sessions tree tasks) :=
        ⟨hcur.1.trans h.reloadVersion, by have := h.saveSeq; omega⟩
      obtain ⟨htab, htasks⟩ := hst hcur'
      exact ⟨htab.trans h.table.symm, htasks.trans h.tasks.symm⟩
    | _ => simp only [Job.CurrentIn] at hcur
  · have hk' := hk j hmem
    cases j <;> simp only [Job.Keeps] at hk' <;> simp only [Job.Stores]
    case save => exact ⟨hk'.2.2.1, hk'.2.2.2⟩

theorem owing (h : Still e e') (hs : ∀ j ∈ e.jobs, j.SavedBefore e) (ho : e.Owing) :
    e'.Owing :=
  ⟨h.owes' ho.1, h.carried hs ho.2⟩

/-- A still step keeps the saves no later than the engine. -/
theorem savedBefore (h : Still e e') (hs : ∀ j ∈ e.jobs, j.SavedBefore e) :
    ∀ j ∈ e'.jobs, j.SavedBefore e' := by
  obtain ⟨new, hj, hk⟩ := h.jobs
  intro j hmem
  rw [hj] at hmem
  rcases List.mem_append.mp hmem with hmem | hmem
  · have hb := hs j hmem
    cases j <;> simp only [Job.SavedBefore] at hb ⊢
    case save => exact ⟨h.reloadVersion ▸ hb.1, Nat.le_trans hb.2 h.saveSeq⟩
  · have hk' := hk j hmem
    cases j <;> simp only [Job.Keeps] at hk' <;> simp only [Job.SavedBefore]
    case save => exact ⟨Nat.le_of_eq hk'.1, hk'.2.1⟩

theorem ite {a b : Engine} {c : Prop} [Decidable c] (ha : Still e a) (hb : Still e b) :
    Still e (if c then a else b) := by
  split
  · exact ha
  · exact hb

/-- A stage done only when `c` holds is still if it is. -/
theorem ite_stage {x y : Engine} {c : Prop} [Decidable c] (hx : Still e x) (hy : Still x y) :
    Still e (if c then y else x) :=
  Still.ite (hx.trans hy) hx

end Still

theorem still_foldl {α : Type} {f : Engine → α → Engine} (hf : ∀ e a, Still e (f e a)) :
    ∀ (l : List α) (e : Engine), Still e (l.foldl f e)
  | [], e => Still.refl e
  | a :: l, e => (hf e a).trans (still_foldl hf l (f e a))

/-- Queueing a job that leaves the registry alone is still. -/
theorem still_spawn_inert (e : Engine) {j : Job} (hj : j.touchesRegistry = false) :
    Still e (e.spawn j) :=
  ⟨rfl, rfl, rfl, rfl, Nat.le_refl _, ⟨[j], rfl, by simpa using j.keeps_of_inert hj _⟩,
    fun hlt => absurd hlt (Nat.lt_irrefl _)⟩

/-- A save of what the engine holds keeps what it stores, and is current. -/
theorem still_scheduleSave (e : Engine) : Still e e.scheduleSave := by
  unfold scheduleSave
  split
  · exact Still.refl e
  · refine ⟨rfl, rfl, rfl, rfl, Nat.le_succ _, ⟨_, rfl, ?_⟩, fun _ => ?_⟩
    · simp only [List.mem_singleton, forall_eq]
      exact ⟨rfl, Nat.le_refl _, rfl, rfl⟩
    · exact ⟨_, List.mem_append_right _ (List.mem_singleton_self _), rfl, rfl⟩

/-- Outside a reload, scheduling a save leaves the engine owing it, once every older save is no
later than the engine. -/
theorem owing_scheduleSave (hr : e.reloading = false) (hs : ∀ j ∈ e.jobs, j.SavedBefore e) :
    e.scheduleSave.Owing := by
  have hsave := still_scheduleSave e
  refine ⟨hsave.owes (by rw [scheduleSave_saveSeq hr]; exact Nat.lt_succ_self _), ?_⟩
  -- the older saves are under lower numbers, and the new one writes what the engine holds
  intro j hmem hcur
  unfold scheduleSave at hmem hcur ⊢
  rw [if_neg (by simp [hr])] at hmem hcur ⊢
  rcases List.mem_append.mp hmem with hmem | hmem
  · have hb := hs j hmem
    cases j <;> simp only [Job.CurrentIn] at hcur
    case save =>
      simp only [Job.SavedBefore] at hb
      simp only [spawn] at hcur
      omega
  · rw [List.mem_singleton.mp hmem]
    exact ⟨rfl, rfl⟩

theorem Still.of_table (hs : sessionTable e'.sessions = sessionTable e.sessions)
    (ht : e'.tasks = e.tasks) (hv : e'.reloadVersion = e.reloadVersion)
    (hr : e'.reloading = e.reloading) (hq : e'.saveSeq = e.saveSeq) (hj : e'.jobs = e.jobs) :
    Still e e' :=
  ⟨hs, ht, hv, hr, Nat.le_of_eq hq.symm, ⟨[], by simp [hj], by simp⟩,
    fun hlt => absurd (hq ▸ hlt) (Nat.lt_irrefl _)⟩

/-- The step keeps what the engine stores, or ends owing a save of what it holds. -/
def Settles (e e' : Engine) : Prop := Still e e' ∨ e'.Owing

theorem Still.settles (h : Still e e') : Settles e e' := .inl h

theorem Still.settles_trans (h : Still e e₁) (h' : Settles e₁ e') : Settles e e' :=
  h'.imp h.trans id

theorem owing_of_queues (hq : Queues e e₁) (hr : e₁.reloading = false)
    (hs : ∀ j ∈ e.jobs, j.SavedBefore e) : e₁.scheduleSave.Owing :=
  owing_scheduleSave hr (hq.savedBefore hs)

theorem owing_of_quiet (hq : Quiet e e₁) (hr : e.reloading = false)
    (hs : ∀ j ∈ e.jobs, j.SavedBefore e) : e₁.scheduleSave.Owing :=
  owing_of_queues hq.queues (hq.reloading.trans hr) hs

theorem owing_of_queues_still {e₂ : Engine} (hq : Queues e e₁) (hr : e₁.reloading = false)
    (hs : ∀ j ∈ e.jobs, j.SavedBefore e) (h : Still e₁.scheduleSave e₂) : e₂.Owing :=
  h.owing (((quiet_scheduleSave e₁).queues.savedBefore (hq.savedBefore hs)))
    (owing_of_queues hq hr hs)

/-! ### Steps that store nothing new -/

theorem still_showBanner (e : Engine) (text : String) : Still e (e.showBanner text) :=
  Still.of_eq rfl rfl rfl rfl rfl rfl

theorem still_markActivity (e : Engine) : Still e e.markActivity :=
  Still.of_eq rfl rfl rfl rfl rfl rfl

theorem still_cacheSet (e : Engine) (id : String) (f : Field) (v : CacheValue) :
    Still e (e.cacheSet id f v) :=
  Still.of_eq rfl rfl rfl rfl rfl rfl

theorem still_cacheDrop (e : Engine) (id : String) (f : Field) : Still e (e.cacheDrop id f) :=
  Still.of_eq rfl rfl rfl rfl rfl rfl

theorem still_endFetch (e : Engine) (id : String) (f : Field) : Still e (e.endFetch id f) :=
  Still.of_eq rfl rfl rfl rfl rfl rfl

theorem still_beginFetch (e : Engine) (id : String) (f : Field) :
    Still e (e.beginFetch id f).1 := by
  unfold beginFetch
  split
  · exact Still.refl e
  · split
    · exact Still.refl e
    · exact Still.of_eq rfl rfl rfl rfl rfl rfl

theorem still_fetchPreview (e : Engine) (id : String) : Still e (e.fetchPreview id) := by
  rcases hb : e.beginFetch id .preview with ⟨e₁, claimed⟩
  have h₁ : Still e e₁ := by simpa [hb] using still_beginFetch e id .preview
  simp only [fetchPreview, hb]
  split
  · exact h₁
  · split
    · exact h₁.trans (still_spawn_inert _ rfl)
    · exact h₁.trans (still_endFetch _ _ _)

theorem still_fetchSideData (e : Engine) (id : String) : Still e (e.fetchSideData id) := by
  unfold fetchSideData
  split
  · exact Still.refl e
  · split
    · exact still_fetchPreview e id
    · -- claiming a fetch is taken as any step that keeps what the engine stores, so that the
      -- claims are taken apart without computing one
      have hb : ∀ e f, Still e (e.beginFetch id f).1 := fun e f => still_beginFetch e id f
      generalize Engine.beginFetch = claim at hb ⊢
      have hclaim : ∀ (e : Engine) (f : Field) (j : Job), j.touchesRegistry = false →
          Still e (if (claim e id f).2 then (claim e id f).1.spawn j else (claim e id f).1) := by
        intro e f j hj
        split
        · exact (hb e f).trans (still_spawn_inert _ hj)
        · exact hb e f
      exact (still_fetchPreview e id).trans ((hclaim _ _ _ rfl).trans
        ((hclaim _ _ _ rfl).trans (hclaim _ _ _ rfl)))

theorem still_onNavigation (e : Engine) : Still e e.onNavigation := by
  unfold onNavigation
  dsimp only
  split
  · refine Still.trans ?_ (still_spawn_inert _ rfl)
    exact Still.of_eq rfl rfl rfl rfl rfl rfl
  · exact Still.of_eq rfl rfl rfl rfl rfl rfl

theorem ViewOf.still (h : ViewOf e e') : Still e e' := by
  obtain ⟨g, r, s, o, f, rfl⟩ := h
  exact Still.of_eq rfl rfl rfl rfl rfl rfl

theorem still_modifySession (e : Engine) (id : String) {f : Session → Session}
    (hid : ∀ s, s.id = id → (f s).id = id)
    (hfirst : ∀ s, e.session? id = some s → (f s).stripStatus = s.stripStatus) :
    Still e (e.modifySession id f) :=
  Still.of_table (sessionTable_map_modify id f hid hfirst) rfl rfl rfl rfl rfl

theorem still_setStatus (e : Engine) (id : String) (status : Status) :
    Still e (e.modifySession id fun s => { s with status }) :=
  still_modifySession e id (fun _ h => h) fun _ _ => rfl

/-! ### The handlers that store nothing new -/

theorem still_onPreviewDebounce (e : Engine) (id : String) :
    Still e (e.onPreviewDebounce id) := by
  unfold onPreviewDebounce
  split
  · exact Still.refl e
  · refine Still.trans ?_ (still_fetchSideData _ _)
    exact Still.of_eq rfl rfl rfl rfl rfl rfl

theorem still_onPreviewCaptured (e : Engine) (id : String)
    (result : Except Error (Option String)) : Still e (e.onPreviewCaptured id result) := by
  unfold onPreviewCaptured
  dsimp only
  refine (still_endFetch e id .preview).trans ?_
  split
  · exact Still.refl _
  · split
    · exact still_cacheSet _ _ _ _
    · exact still_cacheDrop _ _ _
    · exact Still.refl _

theorem still_onDirtyChecked (e : Engine) (id : String) (result : Except Error Bool) :
    Still e (e.onDirtyChecked id result) := by
  unfold onDirtyChecked
  dsimp only
  refine (still_endFetch e id .worktreeDirty).trans ?_
  split
  · exact Still.refl _
  · split
    · exact still_cacheSet _ _ _ _
    · exact still_showBanner _ _

theorem still_onRemoteChecked (e : Engine) (id : String) (result : Except Error String) :
    Still e (e.onRemoteChecked id result) := by
  unfold onRemoteChecked
  dsimp only
  refine (still_endFetch e id .worktreeRemote).trans ?_
  split
  · exact Still.refl _
  · split
    · exact still_cacheSet _ _ _ _
    · exact still_showBanner _ _

theorem still_animate (e : Engine) : Still e e.animate := by
  unfold animate
  split
  · exact Still.refl e
  · refine Still.trans ?_ (still_foldl still_fetchPreview _ _)
    exact Still.of_eq rfl rfl rfl rfl rfl rfl

theorem still_persistViewState (e : Engine) : Still e e.persistViewState := by
  unfold persistViewState
  dsimp only
  split
  · exact Still.refl e
  · refine Still.trans ?_ (still_spawn_inert _ rfl)
    exact Still.of_eq rfl rfl rfl rfl rfl rfl

theorem still_maintainLogs (e : Engine) : Still e e.maintainLogs := by
  unfold maintainLogs
  split
  · exact Still.refl e
  · dsimp only
    split
    · refine Still.trans ?_ (still_spawn_inert _ rfl)
      exact Still.of_eq rfl rfl rfl rfl rfl rfl
    · split
      · refine Still.trans ?_ (still_spawn_inert _ rfl)
        exact Still.of_eq rfl rfl rfl rfl rfl rfl
      · exact Still.of_eq rfl rfl rfl rfl rfl rfl

theorem still_prune (e : Engine) : Still e e.prune :=
  Still.of_eq rfl rfl rfl rfl rfl rfl

theorem still_limits (e : Engine) (l : TickLimits) : Still e { e with limits := l } :=
  Still.of_eq rfl rfl rfl rfl rfl rfl

theorem still_chores (e : Engine) : Still e e.chores := by
  unfold chores
  dsimp only
  -- the chores, peeled from the last one in
  refine Still.ite_stage ?_ ?hy
  case hy => exact still_prune _
  refine Still.trans ?_ (still_limits _ _)
  refine Still.trans ?_ (still_maintainLogs _)
  refine Still.ite_stage ?_ ?hy
  case hy => exact still_persistViewState _
  refine Still.ite_stage ?_ ?hy
  case hy => exact Still.of_eq rfl rfl rfl rfl rfl rfl
  refine Still.trans ?_ (still_animate _)
  exact Still.of_eq rfl rfl rfl rfl rfl rfl

theorem still_probeIfDue (e : Engine) : Still e e.probeIfDue := by
  unfold probeIfDue
  split
  · exact Still.refl e
  · dsimp only
    refine Still.ite_stage (still_limits _ _) ?_
    refine Still.trans ?_ (still_spawn_inert _ rfl)
    exact Still.of_eq rfl rfl rfl rfl rfl rfl

theorem still_tick (e : Engine) : Still e e.tick := by
  unfold tick
  dsimp only
  have hprobe := (still_chores e).trans (still_probeIfDue _)
  refine Still.ite (still_chores e) (Still.ite ?_ hprobe)
  split
  · exact hprobe.trans (still_fetchSideData _ _)
  · exact hprobe

theorem still_applyProbe (e : Engine) (p : Probe) : Still e (e.applyProbe p) := by
  unfold applyProbe
  split
  · exact Still.refl e
  · split
    · exact Still.refl e
    · split
      · refine Still.trans ?_ (still_setStatus _ _ _)
        exact Still.of_eq rfl rfl rfl rfl rfl rfl
      · refine Still.trans ?_ (still_setStatus _ _ _)
        exact Still.of_eq rfl rfl rfl rfl rfl rfl

theorem still_onStatusesProbed (e : Engine) (result : Except Error (List Probe)) :
    Still e (e.onStatusesProbed result) := by
  unfold onStatusesProbed
  dsimp only
  split
  · refine Still.trans ?_ (still_foldl still_applyProbe _ _)
    exact Still.of_eq rfl rfl rfl rfl rfl rfl
  · exact Still.of_eq rfl rfl rfl rfl rfl rfl

/-- Holding a session's hook status and moving its animation on is still. -/
theorem still_hold (e : Engine) (holds : List (String × Nat)) (anims : Animations) :
    Still e { e with hookHolds := holds, animations := anims } :=
  Still.of_eq rfl rfl rfl rfl rfl rfl

theorem learnConversation_of_known {s : Session} {conv : String}
    (h : (learnConversation s conv).2 = false) : (learnConversation s conv).1 = s := by
  unfold learnConversation at h ⊢
  split <;> (try split) <;> simp_all

/-! ### Calls on the view -/

theorem still_view (e : Engine) (groups : GroupTree) (rows : List Row) :
    Still e { e with groups, rows } :=
  Still.of_eq rfl rfl rfl rfl rfl rfl

theorem still_moveCursor (e : Engine) (delta : Int) : Still e (e.moveCursor delta) := by
  unfold moveCursor
  split
  · exact Still.refl e
  · dsimp only
    refine Still.trans ?_ (still_onNavigation _)
    refine Still.trans ?_ (view_ensureVisible _).still
    exact Still.of_eq rfl rfl rfl rfl rfl rfl

theorem still_selectSession (e : Engine) (id : String) : Still e (e.selectSession id).1 := by
  unfold selectSession
  split
  · next e' h => exact (view_placeCursor? h).still.trans (still_onNavigation _)
  · split
    · exact Still.refl e
    · next s _ =>
      dsimp only
      have hview := still_view e (e.groups.expandTo s.groupPath)
        (buildRows e.sessions (e.groups.expandTo s.groupPath))
      split
      · next e' h =>
        exact hview.trans ((view_placeCursor? h).still.trans
          ((still_scheduleSave _).trans (still_onNavigation _)))
      · exact hview

theorem still_selectGroup (e : Engine) (path : String) : Still e (e.selectGroup path).1 := by
  unfold selectGroup
  split
  · next e' h => exact (view_placeCursor? h).still.trans (still_onNavigation _)
  · exact Still.refl e

theorem still_toggleGroup (e : Engine) (path : String) : Still e (e.toggleGroup path) := by
  unfold toggleGroup
  split
  · exact Still.refl e
  · dsimp only
    refine Still.trans ?_ (still_onNavigation _)
    refine Still.trans ?_ (still_scheduleSave _)
    have hview := still_view e (e.groups.toggle path) (buildRows e.sessions (e.groups.toggle path))
    split
    · next e' h => exact hview.trans (view_placeCursor? h).still
    · exact hview.trans (view_placeOrClamp _ _).still

theorem still_setHeight (e : Engine) (height : Nat) : Still e (e.setHeight height) := by
  refine Still.trans ?_ (view_ensureVisible _).still
  exact Still.of_eq rfl rfl rfl rfl rfl rfl

theorem still_respawn (e : Engine) (s : Session) : Still e (e.respawn s) :=
  still_spawn_inert e rfl

theorem still_onDeletesPersisted (e : Engine) (ids : List String) (result : Except Error Unit) :
    Still e (e.onDeletesPersisted ids result) := by
  obtain ⟨banner, pd, he⟩ := onDeletesPersisted_eq (e := e) ids result
  rw [he]
  exact Still.of_eq rfl rfl rfl rfl rfl rfl

/-- Deleting ids none of which is there changes nothing. -/
theorem foldl_dropFound_of_nil (l : List String) (acc : Engine × List Session)
    (h : (l.foldl dropFound acc).2 = acc.2) : l.foldl dropFound acc = acc := by
  induction l generalizing acc with
  | nil => rfl
  | cons id l ih =>
    rw [List.foldl_cons] at h ⊢
    rcases ht : acc.1.session? id with _ | t
    · rw [dropFound_of_none ht] at h ⊢
      exact ih acc h
    · -- a session found is among the removed, so their list grew
      rw [dropFound_of_some ht] at h
      obtain ⟨rs, hrs, -⟩ := removed_foldl_dropFound l (acc.1.dropSession t, acc.2 ++ [t])
      have hlen := congrArg List.length (hrs.symm.trans h)
      simp only [List.length_append, List.length_singleton] at hlen
      omega

/-! ### Handlers that store something new -/

section Idle

variable (hr : e.reloading = false) (hs : ∀ j ∈ e.jobs, j.SavedBefore e)
include hr hs

theorem settles_onStatusUpdate (id : String) : Settles e (e.onStatusUpdate id) := by
  unfold onStatusUpdate
  split
  · exact (Still.refl e).settles
  · dsimp only
    -- the access time changed, and the save at the end writes it
    refine .inr (owing_of_quiet ?_ hr hs)
    refine Quiet.trans ?_ (quiet_fetchPreview _ _)
    refine Quiet.trans ?_ (quiet_cacheDrop _ _ _)
    exact quiet_modifySession e id fun _ _ => rfl

theorem settles_renameSession (id title : String) : Settles e (e.renameSession id title).1 := by
  unfold renameSession
  split
  · exact (Still.refl e).settles
  · dsimp only
    have hq : Quiet e (e.modifySession id fun s => { s with title }).rebuildView := by
      refine Quiet.trans ?_ (quiet_rebuildView _)
      exact quiet_modifySession e id fun _ _ => rfl
    rw [if_neg (by simp [hq.reloading, hr])]
    exact .inr (owing_of_queues_still hq.queues (hq.reloading.trans hr) hs (still_markActivity _))

theorem settles_onReviewFetched (id : String) (result : Except Error (Option Review)) :
    Settles e (e.onReviewFetched id result) := by
  unfold onReviewFetched
  dsimp only
  have hend := still_endFetch e id .reviewStatus
  split
  · exact hend.settles
  · split
    · exact (hend.trans (still_showBanner _ _)).settles
    · split
      · exact (hend.trans (still_cacheSet _ _ _ _)).settles
      · split
        · -- the tasks moved on, and the save at the end writes them
          refine .inr (owing_of_quiet ?_ hr hs)
          refine (quiet_endFetch e id .reviewStatus).trans ?_
          exact Quiet.of_eq rfl rfl rfl rfl rfl (Nat.le_refl _) rfl rfl
        · exact (hend.trans (still_cacheSet _ _ _ _)).settles

theorem settles_saveIf {x : Engine} {c : Prop} [Decidable c] (hq : Quiet e x)
    (hx : ¬c → Still e x) : Settles e (if c then x.scheduleSave else x) := by
  split
  · exact .inr (owing_of_quiet hq hr hs)
  · next hc => exact .inl (hx hc)

theorem settles_onHookStatus (ev : HookEvent) : Settles e (e.onHookStatus ev) := by
  unfold onHookStatus
  dsimp only
  rcases hf : e.session? ev.instanceId with _ | s
  · exact (Still.refl e).settles
  · dsimp only
    have hid := session?_id hf
    refine settles_saveIf hr hs ?_ fun hknown => ?_
    · refine Quiet.ite_stage ?_ ?hy
      case hy => exact (quiet_cacheDrop _ _ _).trans (quiet_fetchPreview _ _)
      refine Quiet.trans ?_ (quiet_hold _ _ _)
      exact quiet_modifySession _ _ fun t ht => by rw [ht, ← hid]; split <;> simp
    · -- no conversation newly learned: only the live status changed
      refine Still.ite_stage ?_ ((still_cacheDrop _ _ _).trans (still_fetchPreview _ _))
      refine Still.trans ?_ (still_hold _ _ _)
      refine still_modifySession _ _ (fun t ht => by rw [← hid]; split <;> simp) fun t ht => ?_
      rw [hf] at ht
      cases ht
      revert hknown
      cases ev.conversation with
      | none => exact fun _ => rfl
      | some conv =>
        intro hknown
        show (learnConversation _ conv).1.stripStatus = _
        rw [learnConversation_of_known (eq_false_of_ne_true hknown)]
        rfl

theorem owing_of_steady {e₂ : Engine} (h : Steady e e₁) (h₂ : Still e₁.scheduleSave e₂) :
    e₂.Owing :=
  owing_of_queues_still h.toQueues (h.reloading.trans hr) hs h₂

theorem owing_addSession (s : Session) (anim : Animation) (stored : Except Error Unit) :
    (e.addSession s anim stored).Owing := by
  have hq := quiet_noteStored e s stored
  rw [addSession_of_idle s anim stored hr]
  refine owing_of_steady hr hs ?_ (Still.refl _)
  refine Steady.of_prefix (noteStored_jobs e s stored) hq.ids hq.reloadVersion hq.saveSeq
    hq.reloading hq.forceSaved ?_
  refine Steady.trans_quiet ?_ (quiet_selectSession _ _)
  exact (steady_insertSession _ s).trans_quiet (quiet_animations _ _)

theorem settles_deleteSessions (l : List String) (kill : Bool) :
    Settles e (e.deleteSessions l kill) := by
  rw [deleteSessions_of_idle l kill hr]
  dsimp only
  split
  · next hnil =>
    -- none of the ids was there
    rw [foldl_dropFound_of_nil l (e, []) (List.isEmpty_iff.mp hnil)]
    exact (Still.refl e).settles
  · obtain ⟨rs, hrs, hmem⟩ := removed_foldl_dropFound l (e, [])
    refine .inr (owing_of_steady hr hs ?_ (Still.ite (still_spawn_inert _ rfl) (Still.refl _)))
    refine ((frame_foldl_dropFound l (e, [])).steady.trans_quiet
      (quiet_rebuildView _)).persistDeletes fun id hid => ?_
    rw [hrs, List.nil_append] at hid
    exact ((hmem id).mp hid).1

theorem owing_restoreSession (s : Session) (stored : Except Error Unit) :
    (e.restoreSession s stored).Owing := by
  have hq := quiet_noteStored e s stored
  rw [restoreSession_eq]
  dsimp only
  refine owing_of_steady hr hs ?_ (still_respawn _ s)
  refine Steady.of_prefix (noteStored_jobs e s stored) hq.ids hq.reloadVersion hq.saveSeq
    hq.reloading hq.forceSaved ?_
  refine Steady.trans_quiet ?_ (quiet_selectSession _ _)
  refine Steady.trans_quiet ?_ ((quiet_animations _ _).trans (quiet_cacheDrop _ _ _))
  -- dropping the undo entry and the guard and taking the tasks back queue nothing
  refine Steady.of_prefix ?_ ?_ ?_ ?_ ?_ ?_ (steady_insertSession _ s)
  · rfl
  · rfl
  · rfl
  · exact Nat.le_refl _
  · rfl
  · rfl

theorem settles_react {m : Message} (stored : Except Error Unit) (hm : m ≠ .storageChanged) :
    Settles e (e.react m stored) := by
  cases m with
  | storageChanged => exact absurd rfl hm
  | lifecycle ev =>
    cases ev with
    | created s => exact .inr (owing_addSession hr hs s .launching stored)
    | forked s => exact .inr (owing_addSession hr hs s .forking stored)
    | deleted id kill => exact settles_deleteSessions hr hs [id] kill
    | bulkDeleted ids kill => exact settles_deleteSessions hr hs ids kill
    | restored =>
      rcases react_restored e stored with ⟨s, -, he⟩ | ⟨-, he⟩
      · rw [he]
        exact .inr (owing_restoreSession hr hs s stored)
      · rw [he]
        exact (Still.refl e).settles
  | statusUpdate id => exact settles_onStatusUpdate hr hs id
  | tick => exact (still_tick e).settles
  | previewDebounce id => exact (still_onPreviewDebounce e id).settles
  | hookStatus ev => exact settles_onHookStatus hr hs ev
  | reloadLoaded v r =>
    -- outside a reload every load is stale
    show Settles e (e.finishReload v r)
    rw [finishReload_of_stale r (by simp [hr])]
    exact (Still.refl e).settles
  | previewCaptured id r => exact (still_onPreviewCaptured e id r).settles
  | dirtyChecked id r => exact (still_onDirtyChecked e id r).settles
  | remoteChecked id r => exact (still_onRemoteChecked e id r).settles
  | reviewFetched id r => exact settles_onReviewFetched hr hs id r
  | statusesProbed r => exact (still_onStatusesProbed e r).settles
  | deletesPersisted ids r => exact (still_onDeletesPersisted e ids r).settles
  | saveFailed text => exact (still_showBanner _ _).settles
  | failure text => exact (still_showBanner _ _).settles

theorem settles_call (c : Call) : Settles e (e.call c) := by
  cases c with
  | moveCursor delta => exact (still_moveCursor e delta).settles
  | selectSession id => exact (still_selectSession e id).settles
  | selectGroup path => exact (still_selectGroup e path).settles
  | toggleGroup path => exact (still_toggleGroup e path).settles
  | setHeight height => exact (still_setHeight e height).settles
  | rename id title => exact settles_renameSession hr hs id title

end Idle

theorem still_clock (e : Engine) (clock : Nat) : Still e { e with clock } :=
  Still.of_eq rfl rfl rfl rfl rfl rfl

/-- Outside a reload, every input but a storage change keeps what the engine stores or leaves it
owing a save of what it holds. -/
theorem settles_take (hr : e.reloading = false) (hs : ∀ j ∈ e.jobs, j.SavedBefore e) {i : Input}
    (hi : ∀ stored clock, i ≠ .message .storageChanged stored clock) : Settles e (e.take i) := by
  cases i with
  | message m stored clock =>
    have hm : m ≠ .storageChanged := by
      rintro rfl
      exact hi stored clock rfl
    exact (still_clock e clock).settles_trans (settles_react (e := { e with clock }) hr hs stored hm)
  | call c clock =>
    exact (still_clock e clock).settles_trans (settles_call (e := { e with clock }) hr hs c)

/-! ### Taking a job off the queue -/

theorem Carried.eraseIdx (h : e.Carried) (i : Nat) :
    ({ e with jobs := e.jobs.eraseIdx i } : Engine).Carried :=
  fun j hj hcur => h j (List.mem_of_mem_eraseIdx hj) hcur

/-- Taking off the queue a job that is not the current save keeps the current save queued. -/
theorem Owes.eraseIdx (h : e.Owes) {i : Nat} {j : Job} (hj : e.jobs[i]? = some j)
    (hcur : ¬ j.CurrentIn e) : ({ e with jobs := e.jobs.eraseIdx i } : Engine).Owes := by
  obtain ⟨k, hk, hkcur⟩ := h
  obtain ⟨hi, rfl⟩ := List.getElem?_eq_some_iff.mp hj
  refine ⟨k, ?_, hkcur⟩
  -- the job taken off is not current, so the current one is another
  rcases List.mem_cons.mp ((List.getElem_cons_eraseIdx_perm hi).symm.subset hk) with hkj | hk'
  · exact absurd (hkj ▸ hkcur) hcur
  · exact hk'

end Engine

end AgentDeck
