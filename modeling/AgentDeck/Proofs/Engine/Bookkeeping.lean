import Mathlib
import AgentDeck.Proofs.Engine.Quiet

/-!
What the handlers that change the sessions or the reload state do to the bookkeeping.

Every handler but the start of a reload keeps the reload version, raises the save counter if
anything, and queues after the old jobs only saves of what it ends with, removals of sessions
it held and jobs that leave the registry alone (`Queues`); all but the end of a reload also
keep the reload state (`Steady`). Each of the others is then described by what it does to the
session ids, the sessions kept aside and the guarded deletes.
-/

namespace AgentDeck

/-- A job a handler may queue on its way from `e` to `e'`: a save of what `e'` holds under its
reload version, when `e'` is not reloading; a removal of sessions `e` held and `e'` guards as
deleted; or a job that leaves the registry alone. -/
def Job.Queued (e e' : Engine) : Job → Prop
  | .save version seq sessions _ _ =>
    version = e'.reloadVersion ∧ seq ≤ e'.saveSeq ∧ sessions.map (·.id) = e'.sessions.map (·.id) ∧
      e'.reloading = false
  | .load _ => False
  | .removeSessions ids =>
    ∀ id ∈ ids, id ∈ e.sessions.map (·.id) ∧ (id, false) ∈ e'.pendingDeletes
  | _ => True

/-- Messages whose handlers may change the session ids, the guarded deletes, the sessions kept
aside, the reload state or the undo list. -/
def Message.touchesBookkeeping : Message → Bool
  | .storageChanged | .lifecycle _ | .reloadLoaded .. | .deletesPersisted .. => true
  | _ => false

/-! ### Tables of pairs -/

section Tables

variable {α : Type} (tbl : List (String × α)) (k : String)

theorem lookup_isSome_iff : (tbl.lookup k).isSome ↔ ∃ v, (k, v) ∈ tbl := by
  induction tbl with
  | nil => simp
  | cons p tbl ih =>
    obtain ⟨k', v'⟩ := p
    by_cases hk : k = k'
    · subst hk
      simp [List.lookup]
    · have hb : (k == k') = false := beq_false_of_ne hk
      simp [List.lookup, hb, ih, hk]

theorem mem_putKey_self (v : α) : (k, v) ∈ putKey tbl k v := by
  unfold putKey
  split
  · next h =>
    obtain ⟨w, hw⟩ := (lookup_isSome_iff tbl k).mp h
    exact List.mem_map.mpr ⟨(k, w), hw, by simp⟩
  · exact List.mem_append_right _ (List.mem_singleton_self _)

theorem mem_putKey_of_ne {p : String × α} (v : α) (hp : p ∈ tbl) (hk : p.1 ≠ k) :
    p ∈ putKey tbl k v := by
  unfold putKey
  split
  · exact List.mem_map.mpr ⟨p, hp, by simp [hk]⟩
  · exact List.mem_append_left _ hp

theorem mem_dropKey {p : String × α} : p ∈ dropKey tbl k ↔ p ∈ tbl ∧ p.1 ≠ k := by
  simp [dropKey]

/-- Putting a value under a key adds the key only when it has no entry yet. -/
theorem nodup_keys_putKey (v : α) (h : (tbl.map Prod.fst).Nodup) :
    ((putKey tbl k v).map Prod.fst).Nodup := by
  unfold putKey
  split
  · -- the entry under `k` changes its value only
    have hkeys : (tbl.map fun p => if p.1 == k then (k, v) else p).map Prod.fst =
        tbl.map Prod.fst := by
      rw [List.map_map]
      refine List.map_congr_left fun p _ => ?_
      by_cases hp : p.1 = k <;> simp [hp]
    rw [hkeys]
    exact h
  · next hnone =>
    rw [List.map_append, List.nodup_append]
    refine ⟨h, List.nodup_singleton _, fun a ha b hb hab => hnone ?_⟩
    obtain ⟨⟨a', w⟩, hw, rfl⟩ := List.mem_map.mp ha
    simp only [List.map_cons, List.map_nil, List.mem_singleton] at hb
    have hk : a' = k := hab.trans hb
    subst hk
    exact (lookup_isSome_iff tbl a').mpr ⟨w, hw⟩

theorem mem_foldl_putKey_of_not_mem (ids : List String) (v : α) {p : String × α} (hp : p ∈ tbl)
    (hk : p.1 ∉ ids) : p ∈ ids.foldl (fun t id => putKey t id v) tbl := by
  induction ids generalizing tbl with
  | nil => exact hp
  | cons id ids ih =>
    rw [List.mem_cons, not_or] at hk
    exact ih _ (mem_putKey_of_ne tbl id v hp hk.1) hk.2

theorem mem_foldl_putKey (ids : List String) (v : α) (hk : k ∈ ids) :
    (k, v) ∈ ids.foldl (fun t id => putKey t id v) tbl := by
  induction ids generalizing tbl with
  | nil => exact absurd hk List.not_mem_nil
  | cons id ids ih =>
    by_cases hin : k ∈ ids
    · exact ih _ hin
    · have hid : k = id := (List.mem_cons.mp hk).resolve_right hin
      subst hid
      exact mem_foldl_putKey_of_not_mem _ ids v (mem_putKey_self tbl k v) hin

end Tables

namespace Engine

/-- The step from `e` to `e'` keeps the reload version, does not lower the save counter and
queues only `Queued` jobs after the old ones. -/
structure Queues (e e' : Engine) : Prop where
  reloadVersion : e'.reloadVersion = e.reloadVersion
  saveSeq : e.saveSeq ≤ e'.saveSeq
  jobs : ∃ new, e'.jobs = e.jobs ++ new ∧ ∀ j ∈ new, j.Queued e e'

/-- Besides, the step keeps the reload state, and outside a reload the sessions kept aside. -/
structure Steady (e e' : Engine) : Prop extends Queues e e' where
  reloading : e'.reloading = e.reloading
  forceSaved : e'.reloading = false → e'.forceSaved = e.forceSaved

variable {e e₁ e' : Engine}

theorem queued_of_benign {j : Job} (hj : j.Benign e') : j.Queued e e' := by
  cases j <;> simp only [Job.Benign] at hj <;> simp only [Job.Queued]
  all_goals exact hj

theorem Quiet.queues (h : Quiet e e') : Queues e e' := by
  obtain ⟨new, hj, hb⟩ := h.jobs
  exact ⟨h.reloadVersion, h.saveSeq, new, hj, fun j hmem => queued_of_benign (hb j hmem)⟩

theorem Quiet.steady (h : Quiet e e') : Steady e e' :=
  { h.queues with
    reloading := h.reloading
    forceSaved := fun _ => h.forceSaved }

theorem Queues.of_jobs (hv : e'.reloadVersion = e.reloadVersion) (hq : e.saveSeq ≤ e'.saveSeq)
    (hj : e'.jobs = e.jobs) : Queues e e' :=
  ⟨hv, hq, [], by simp [hj], by simp⟩

/-- A quiet step after one that queues keeps what it queued in order. -/
theorem Queues.trans_quiet (h : Queues e e₁) (hq : Quiet e₁ e') : Queues e e' := by
  obtain ⟨n₁, hj₁, hb₁⟩ := h.jobs
  obtain ⟨n₂, hj₂, hb₂⟩ := hq.jobs
  refine ⟨hq.reloadVersion.trans h.reloadVersion, Nat.le_trans h.saveSeq hq.saveSeq,
    n₁ ++ n₂, by rw [hj₂, hj₁, List.append_assoc], ?_⟩
  intro j hj
  rcases List.mem_append.mp hj with hj | hj
  · have hq₁ := hb₁ j hj
    cases j <;> simp only [Job.Queued] at hq₁ ⊢
    case save =>
      obtain ⟨hv, hs, hi, hr⟩ := hq₁
      exact ⟨hv.trans hq.reloadVersion.symm, Nat.le_trans hs hq.saveSeq, hi.trans hq.ids.symm,
        hq.reloading.trans hr⟩
    case removeSessions ids =>
      exact fun id hid => ⟨(hq₁ id hid).1, hq.pendingDeletes ▸ (hq₁ id hid).2⟩
  · exact queued_of_benign (hb₂ j hj)

theorem Steady.trans_quiet (h : Steady e e₁) (hq : Quiet e₁ e') : Steady e e' :=
  { h.toQueues.trans_quiet hq with
    reloading := hq.reloading.trans h.reloading
    forceSaved := fun hr => hq.forceSaved.trans (h.forceSaved (hq.reloading ▸ hr)) }

/-- A step that queues nothing and keeps the sessions' ids and the counters, before one that
queues. -/
theorem Queues.of_prefix (hj : e₁.jobs = e.jobs)
    (hi : e₁.sessions.map (·.id) = e.sessions.map (·.id))
    (hv : e₁.reloadVersion = e.reloadVersion) (hq : e.saveSeq ≤ e₁.saveSeq) (h : Queues e₁ e') :
    Queues e e' := by
  obtain ⟨new, hj₂, hb⟩ := h.jobs
  refine ⟨h.reloadVersion.trans hv, Nat.le_trans hq h.saveSeq, new, by rw [hj₂, hj], ?_⟩
  intro j hmem
  have hq₂ := hb j hmem
  cases j <;> simp only [Job.Queued] at hq₂ ⊢
  case removeSessions ids => exact fun id hid => ⟨hi ▸ (hq₂ id hid).1, (hq₂ id hid).2⟩
  all_goals exact hq₂

/-- Besides, it keeps the reload state and the sessions kept aside. -/
theorem Steady.of_prefix (hj : e₁.jobs = e.jobs)
    (hi : e₁.sessions.map (·.id) = e.sessions.map (·.id))
    (hv : e₁.reloadVersion = e.reloadVersion) (hq : e.saveSeq ≤ e₁.saveSeq)
    (hr : e₁.reloading = e.reloading) (hf : e₁.forceSaved = e.forceSaved) (h : Steady e₁ e') :
    Steady e e' :=
  { Queues.of_prefix hj hi hv hq h.toQueues with
    reloading := h.reloading.trans hr
    forceSaved := fun hr' => (h.forceSaved hr').trans hf }

/-- `e'` differs from `e` at most in its sessions and what hangs off them or shows them: it
queues nothing and keeps the reload state, the counters, the sessions kept aside and the
guards. -/
structure Frame (e e' : Engine) : Prop where
  jobs : e'.jobs = e.jobs
  reloading : e'.reloading = e.reloading
  reloadVersion : e'.reloadVersion = e.reloadVersion
  saveSeq : e'.saveSeq = e.saveSeq
  forceSaved : e'.forceSaved = e.forceSaved
  pendingDeletes : e'.pendingDeletes = e.pendingDeletes

theorem Frame.refl (e : Engine) : Frame e e := ⟨rfl, rfl, rfl, rfl, rfl, rfl⟩

theorem Frame.trans (h₁ : Frame e e₁) (h₂ : Frame e₁ e') : Frame e e' :=
  ⟨h₂.jobs.trans h₁.jobs, h₂.reloading.trans h₁.reloading,
    h₂.reloadVersion.trans h₁.reloadVersion, h₂.saveSeq.trans h₁.saveSeq,
    h₂.forceSaved.trans h₁.forceSaved, h₂.pendingDeletes.trans h₁.pendingDeletes⟩

theorem Frame.steady (h : Frame e e') : Steady e e' :=
  { Queues.of_jobs h.reloadVersion (Nat.le_of_eq h.saveSeq.symm) h.jobs with
    reloading := h.reloading
    forceSaved := fun _ => h.forceSaved }

theorem frame_sessions (e : Engine) (groups : GroupTree) (sessions : List Session) :
    Frame e { e with groups, sessions } :=
  ⟨rfl, rfl, rfl, rfl, rfl, rfl⟩

theorem ViewOf.frame (h : ViewOf e e') : Frame e e' := by
  obtain ⟨g, r, s, o, f, rfl⟩ := h
  exact ⟨rfl, rfl, rfl, rfl, rfl, rfl⟩

theorem frame_rebuildView (e : Engine) : Frame e e.rebuildView :=
  (view_rebuildView e).frame

theorem frame_insertSession (e : Engine) (s : Session) : Frame e (e.insertSession s) :=
  (frame_sessions _ _ _).trans (frame_rebuildView _)

/-- Putting the cursor back changes only the view. -/
theorem view_applyRestore (e : Engine) (r : Restore) : ViewOf e (e.applyRestore r).1 := by
  unfold applyRestore
  dsimp only
  have hoff : ViewOf e { e with offset := r.offset } := ⟨_, _, _, _, _, rfl⟩
  split
  · next e' h => exact hoff.trans (view_placeCursor? h)
  · split
    · split
      · exact hoff.trans (ViewOf.trans ⟨_, _, _, _, _, rfl⟩ (view_placeOrClamp _ r.cursor))
      · exact hoff.trans (view_clampCursor _)
    · exact hoff.trans (view_clampCursor _)

/-! ### Looking up and inserting sessions -/

theorem session?_isSome_iff (e : Engine) (id : String) :
    (e.session? id).isSome ↔ id ∈ e.sessions.map (·.id) := by
  simp [session?, List.find?_isSome]

theorem session?_eq_none_iff (e : Engine) (id : String) :
    e.session? id = none ↔ id ∉ e.sessions.map (·.id) := by
  rw [← session?_isSome_iff, Option.not_isSome_iff_eq_none]

theorem mem_ids_insertSession (e : Engine) (s : Session) (x : String) :
    x ∈ (e.insertSession s).sessions.map (·.id) ↔ x ∈ e.sessions.map (·.id) ∨ x = s.id := by
  unfold insertSession
  dsimp only
  rw [(quiet_rebuildView _).ids]
  split
  · next h =>
    -- `s` takes the place of the session with its id, so the ids stay
    have hs : s.id ∈ e.sessions.map (·.id) := (session?_isSome_iff e s.id).mp h
    have hids : (e.sessions.map fun t => if t.id == s.id then s else t).map (·.id) =
        e.sessions.map (·.id) := by
      simp only [List.map_map]
      congr 1
      funext t
      simp only [Function.comp]
      split
      · next ht => exact (beq_iff_eq.mp ht).symm
      · rfl
    rw [hids]
    exact ⟨Or.inl, fun h' => h'.elim id (fun hx => hx ▸ hs)⟩
  · simp

theorem steady_insertSession (e : Engine) (s : Session) : Steady e (e.insertSession s) :=
  (frame_insertSession e s).steady

/-! ### Created and forked sessions -/

theorem quiet_noteStored (e : Engine) (s : Session) (stored : Except Error Unit) :
    Quiet e (e.noteStored s stored) := by
  unfold noteStored
  split
  · exact Quiet.refl e
  · exact quiet_showBanner _ _

theorem noteStored_jobs (e : Engine) (s : Session) (stored : Except Error Unit) :
    (e.noteStored s stored).jobs = e.jobs := by
  unfold noteStored
  split <;> rfl

theorem quiet_animations (e : Engine) (a : Animations) : Quiet e { e with animations := a } :=
  Quiet.of_eq rfl rfl rfl rfl rfl (Nat.le_refl _) rfl rfl

variable (s : Session) (anim : Animation) (stored : Except Error Unit)

/-- During a reload a new session is kept aside. -/
theorem addSession_of_reloading (h : e.reloading = true) :
    e.addSession s anim stored =
      let e₁ := e.noteStored s stored
      { e₁ with animations := e₁.animations.start anim s.id e₁.clock,
                forceSaved := e₁.forceSaved ++ [s] } := by
  unfold addSession
  dsimp only
  rw [if_pos ((quiet_noteStored e s stored).reloading.trans h)]

/-- Outside a reload a new session is inserted, selected and saved. -/
theorem addSession_of_idle (h : e.reloading = false) :
    e.addSession s anim stored =
      let e₁ := (e.noteStored s stored).insertSession s
      (({ e₁ with animations := e₁.animations.start anim s.id e₁.clock }).selectSession
        s.id).1.scheduleSave := by
  unfold addSession
  dsimp only
  rw [if_neg (by simp [(quiet_noteStored e s stored).reloading, h])]

theorem steady_addSession : Steady e (e.addSession s anim stored) := by
  have hq := quiet_noteStored e s stored
  refine Steady.of_prefix (noteStored_jobs e s stored) hq.ids hq.reloadVersion hq.saveSeq
    hq.reloading hq.forceSaved ?_
  cases h : e.reloading
  · rw [addSession_of_idle s anim stored h]
    refine Steady.trans_quiet ?_ (quiet_scheduleSave _)
    refine Steady.trans_quiet ?_ (quiet_selectSession _ _)
    exact (steady_insertSession _ _).trans_quiet (quiet_animations _ _)
  · rw [addSession_of_reloading s anim stored h]
    refine ⟨Queues.of_jobs rfl (Nat.le_refl _) rfl, rfl, fun hr => ?_⟩
    -- a reload is running, so there is no idle state to keep the sessions aside in
    simp only [hq.reloading, h] at hr
    exact absurd hr Bool.noConfusion

theorem mem_ids_addSession (x : String) :
    x ∈ (e.addSession s anim stored).sessions.map (·.id) ↔
      x ∈ e.sessions.map (·.id) ∨ (e.reloading = false ∧ x = s.id) := by
  have hq := quiet_noteStored e s stored
  cases h : e.reloading
  · rw [addSession_of_idle s anim stored h, (quiet_scheduleSave _).ids,
      (quiet_selectSession _ _).ids, (quiet_animations _ _).ids, mem_ids_insertSession, hq.ids]
    simp
  · rw [addSession_of_reloading s anim stored h]
    simp [hq.ids]

theorem addSession_forceSaved :
    (e.addSession s anim stored).forceSaved =
      if e.reloading then e.forceSaved ++ [s] else e.forceSaved := by
  have hq := quiet_noteStored e s stored
  cases h : e.reloading
  · rw [addSession_of_idle s anim stored h, (quiet_scheduleSave _).forceSaved,
      (quiet_selectSession _ _).forceSaved, (quiet_animations _ _).forceSaved,
      (steady_insertSession _ _).forceSaved
        (by rw [(steady_insertSession _ _).reloading, hq.reloading, h])]
    simp [hq.forceSaved]
  · rw [addSession_of_reloading s anim stored h]
    simp [hq.forceSaved]

theorem addSession_pendingDeletes :
    (e.addSession s anim stored).pendingDeletes = e.pendingDeletes := by
  have hq := quiet_noteStored e s stored
  cases h : e.reloading
  · rw [addSession_of_idle s anim stored h, (quiet_scheduleSave _).pendingDeletes,
      (quiet_selectSession _ _).pendingDeletes, (quiet_animations _ _).pendingDeletes]
    unfold insertSession
    rw [(quiet_rebuildView _).pendingDeletes, hq.pendingDeletes]
  · rw [addSession_of_reloading s anim stored h]
    exact hq.pendingDeletes

/-! ### Deleted sessions -/

theorem frame_dropSession (e : Engine) (t : Session) : Frame e (e.dropSession t) :=
  ⟨rfl, rfl, rfl, rfl, rfl, rfl⟩

theorem mem_ids_dropSession (e : Engine) (t : Session) (x : String) :
    x ∈ (e.dropSession t).sessions.map (·.id) ↔ x ∈ e.sessions.map (·.id) ∧ x ≠ t.id := by
  simp only [dropSession, List.mem_map, List.mem_filter, bne_iff_ne, ne_eq]
  constructor
  · rintro ⟨u, ⟨hu, hne⟩, rfl⟩
    exact ⟨⟨u, hu, rfl⟩, hne⟩
  · rintro ⟨⟨u, hu, rfl⟩, hne⟩
    exact ⟨u, ⟨hu, hne⟩, rfl⟩

theorem frame_foldl_dropFound (l : List String) (acc : Engine × List Session) :
    Frame acc.1 (l.foldl dropFound acc).1 := by
  induction l generalizing acc with
  | nil => exact Frame.refl _
  | cons id l ih =>
    refine Frame.trans ?_ (ih _)
    unfold dropFound
    split
    · exact frame_dropSession _ _
    · exact Frame.refl _

theorem mem_ids_foldl_dropFound (l : List String) (acc : Engine × List Session) (x : String) :
    x ∈ (l.foldl dropFound acc).1.sessions.map (·.id) ↔
      x ∈ acc.1.sessions.map (·.id) ∧ x ∉ l := by
  induction l generalizing acc with
  | nil => simp
  | cons id l ih =>
    rw [List.foldl_cons, ih]
    unfold dropFound
    split
    · next t ht =>
      rw [mem_ids_dropSession, session?_id ht, List.mem_cons, not_or]
      exact and_assoc
    · next ht =>
      -- there is no session with id `id`, so leaving it out changes nothing
      have hid := (session?_eq_none_iff _ _).mp ht
      rw [List.mem_cons, not_or]
      constructor
      · rintro ⟨hx, hl⟩
        exact ⟨hx, fun hxi => hid (hxi ▸ hx), hl⟩
      · rintro ⟨hx, -, hl⟩
        exact ⟨hx, hl⟩

theorem dropFound_of_some {acc : Engine × List Session} {id : String} {t : Session}
    (h : acc.1.session? id = some t) : dropFound acc id = (acc.1.dropSession t, acc.2 ++ [t]) := by
  unfold dropFound
  rw [h]

theorem dropFound_of_none {acc : Engine × List Session} {id : String}
    (h : acc.1.session? id = none) : dropFound acc id = acc := by
  unfold dropFound
  rw [h]

/-- The sessions removed are those of `l` that were there. -/
theorem removed_foldl_dropFound (l : List String) (acc : Engine × List Session) :
    ∃ rs, (l.foldl dropFound acc).2 = acc.2 ++ rs ∧
      ∀ x, x ∈ rs.map (·.id) ↔ x ∈ acc.1.sessions.map (·.id) ∧ x ∈ l := by
  induction l generalizing acc with
  | nil => exact ⟨[], by simp, by simp⟩
  | cons id l ih =>
    rw [List.foldl_cons]
    rcases ht : acc.1.session? id with _ | t
    · obtain ⟨rs, hrs, hmem⟩ := ih acc
      have hid := (session?_eq_none_iff _ _).mp ht
      refine ⟨rs, by rw [dropFound_of_none ht, hrs], fun x => ?_⟩
      rw [hmem, List.mem_cons]
      constructor
      · rintro ⟨hx, hl⟩
        exact ⟨hx, Or.inr hl⟩
      · rintro ⟨hx, rfl | hl⟩
        · exact absurd hx hid
        · exact ⟨hx, hl⟩
    · obtain ⟨rs, hrs, hmem⟩ := ih (acc.1.dropSession t, acc.2 ++ [t])
      have htid := session?_id ht
      have hin := (session?_isSome_iff acc.1 id).mp (by rw [ht]; rfl)
      refine ⟨t :: rs, by rw [dropFound_of_some ht, hrs, List.append_assoc]; rfl, fun x => ?_⟩
      rw [List.map_cons, List.mem_cons, hmem, mem_ids_dropSession, htid, List.mem_cons]
      by_cases hx : x = id
      · subst hx
        simp [hin]
      · simp [hx]

theorem persistDeletes_jobs (e : Engine) (ids : List String) :
    (e.persistDeletes ids).jobs = e.jobs ++ [.removeSessions ids] := rfl

theorem persistDeletes_pendingDeletes (e : Engine) (ids : List String) :
    (e.persistDeletes ids).pendingDeletes =
      ids.foldl (fun t id => putKey t id false) e.pendingDeletes := rfl

/-- Guarding and removing sessions that `e` held. -/
theorem Steady.persistDeletes {ids : List String} (h : Steady e e₁)
    (hids : ∀ id ∈ ids, id ∈ e.sessions.map (·.id)) : Steady e (e₁.persistDeletes ids) := by
  obtain ⟨new, hj, hb⟩ := h.jobs
  refine ⟨⟨h.reloadVersion, h.saveSeq, new ++ [.removeSessions ids], ?_, ?_⟩, h.reloading,
    h.forceSaved⟩
  · rw [persistDeletes_jobs, hj, List.append_assoc]
  · intro j hmem
    rcases List.mem_append.mp hmem with hmem | hmem
    · have hq := hb j hmem
      cases j <;> simp only [Job.Queued] at hq ⊢
      case removeSessions ids' =>
        -- guarding more ids as not landed keeps every guard that is not landed
        refine fun id hid => ⟨(hq id hid).1, ?_⟩
        rw [persistDeletes_pendingDeletes]
        by_cases hin : id ∈ ids
        · exact mem_foldl_putKey _ id ids false hin
        · exact mem_foldl_putKey_of_not_mem _ ids false (hq id hid).2 hin
      all_goals exact hq
    · rw [List.mem_singleton.mp hmem]
      exact fun id hid => ⟨hids id hid, mem_foldl_putKey _ id ids false hid⟩

theorem deleteSessions_of_reloading (l : List String) (kill : Bool) (h : e.reloading = true) :
    e.deleteSessions l kill = e := by
  unfold deleteSessions
  rw [if_pos h]

/-- Outside a reload, the sessions of `l` that are there go; if any did, their removal is
guarded and queued and the state saved. -/
theorem deleteSessions_of_idle (l : List String) (kill : Bool) (h : e.reloading = false) :
    e.deleteSessions l kill =
      let r := l.foldl dropFound (e, [])
      if r.2.isEmpty then r.1
      else
        let e := (r.1.rebuildView.persistDeletes (r.2.map (·.id))).scheduleSave
        if kill then e.spawn (.kill (r.2.map (·.paneName))) else e := by
  unfold deleteSessions
  rw [if_neg (by simp [h])]

/-- Stopping panes when asked is quiet. -/
theorem quiet_killIf (e : Engine) (c : Bool) (panes : List String) :
    Quiet e (if c then e.spawn (.kill panes) else e) := by
  split
  · exact quiet_spawn e trivial
  · exact Quiet.refl e

theorem scheduleSave_saveSeq (h : e.reloading = false) : e.scheduleSave.saveSeq = e.saveSeq + 1 := by
  unfold scheduleSave
  rw [if_neg (by simp [h])]
  rfl

section Delete

variable (l : List String) (kill : Bool)

theorem steady_deleteSessions : Steady e (e.deleteSessions l kill) := by
  cases h : e.reloading
  · rw [deleteSessions_of_idle l kill h]
    dsimp only
    obtain ⟨rs, hrs, hmem⟩ := removed_foldl_dropFound l (e, [])
    have hframe := frame_foldl_dropFound l (e, [])
    split
    · exact hframe.steady
    · refine Steady.trans_quiet ?_ (quiet_killIf _ _ _)
      refine Steady.trans_quiet ?_ (quiet_scheduleSave _)
      refine (hframe.steady.trans_quiet (quiet_rebuildView _)).persistDeletes fun id hid => ?_
      -- what was removed was there
      rw [hrs, List.nil_append] at hid
      exact ((hmem id).mp hid).1
  · rw [deleteSessions_of_reloading l kill h]
    exact (Quiet.refl e).steady

theorem mem_ids_deleteSessions (x : String) :
    x ∈ (e.deleteSessions l kill).sessions.map (·.id) ↔
      x ∈ e.sessions.map (·.id) ∧ (e.reloading = true ∨ x ∉ l) := by
  cases h : e.reloading
  · rw [deleteSessions_of_idle l kill h]
    dsimp only
    have hids := mem_ids_foldl_dropFound l (e, []) x
    simp only [Bool.false_eq_true, false_or]
    split
    · exact hids
    · rw [(quiet_killIf _ _ _).ids, (quiet_scheduleSave _).ids]
      exact ((quiet_rebuildView _).ids ▸ hids :)
  · rw [deleteSessions_of_reloading l kill h]
    simp

theorem deleteSessions_forceSaved : (e.deleteSessions l kill).forceSaved = e.forceSaved := by
  cases h : e.reloading
  · exact (steady_deleteSessions l kill).forceSaved ((steady_deleteSessions l kill).reloading.trans h)
  · rw [deleteSessions_of_reloading l kill h]

/-- A delete keeps the guards of ids it does not hold. -/
theorem mem_pendingDeletes_deleteSessions {p : String × Bool} (hp : p ∈ e.pendingDeletes)
    (hk : p.1 ∉ e.sessions.map (·.id)) : p ∈ (e.deleteSessions l kill).pendingDeletes := by
  cases h : e.reloading
  · rw [deleteSessions_of_idle l kill h]
    dsimp only
    obtain ⟨rs, hrs, hmem⟩ := removed_foldl_dropFound l (e, [])
    have hframe := frame_foldl_dropFound l (e, [])
    split
    · exact hframe.pendingDeletes ▸ hp
    · rw [(quiet_killIf _ _ _).pendingDeletes,
        (quiet_scheduleSave _).pendingDeletes, persistDeletes_pendingDeletes,
        (quiet_rebuildView _).pendingDeletes, hframe.pendingDeletes]
      refine mem_foldl_putKey_of_not_mem _ _ false hp fun hr => hk ?_
      rw [hrs, List.nil_append] at hr
      exact ((hmem _).mp hr).1
  · rw [deleteSessions_of_reloading l kill h]
    exact hp

/-- Outside a reload, deleting a session that is there guards its id and saves under a new
number. -/
theorem deleteSessions_removes {x : String} (h : e.reloading = false)
    (hx : x ∈ e.sessions.map (·.id)) (hl : x ∈ l) :
    (x, false) ∈ (e.deleteSessions l kill).pendingDeletes ∧
      e.saveSeq < (e.deleteSessions l kill).saveSeq := by
  rw [deleteSessions_of_idle l kill h]
  dsimp only
  obtain ⟨rs, hrs, hmem⟩ := removed_foldl_dropFound l (e, [])
  have hframe := frame_foldl_dropFound l (e, [])
  rw [hrs, List.nil_append]
  have hxr : x ∈ rs.map (·.id) := (hmem x).mpr ⟨hx, hl⟩
  have hne : rs.isEmpty = false := by
    cases rs with
    | nil => exact absurd hxr List.not_mem_nil
    | cons _ _ => rfl
  rw [if_neg (by simp [hne])]
  generalize (l.foldl dropFound (e, [])).1 = r at hframe ⊢
  have hrebuild := quiet_rebuildView r
  have hidle : (r.rebuildView.persistDeletes (rs.map (·.id))).reloading = false :=
    hrebuild.reloading.trans (hframe.reloading.trans h)
  have htail := (quiet_scheduleSave (r.rebuildView.persistDeletes (rs.map (·.id)))).trans
    (quiet_killIf _ kill (rs.map (·.paneName)))
  refine ⟨?_, ?_⟩
  · rw [htail.pendingDeletes, persistDeletes_pendingDeletes]
    exact mem_foldl_putKey _ x _ false hxr
  · -- the save the delete schedules takes the next number
    calc e.saveSeq ≤ (r.rebuildView.persistDeletes (rs.map (·.id))).saveSeq := by
          rw [← hframe.saveSeq]
          exact hrebuild.saveSeq
      _ < (r.rebuildView.persistDeletes (rs.map (·.id))).scheduleSave.saveSeq := by
          rw [scheduleSave_saveSeq hidle]
          exact Nat.lt_succ_self _
      _ ≤ _ := (quiet_killIf _ kill _).saveSeq

end Delete

/-! ### Undo -/

theorem quiet_respawn (e : Engine) (s : Session) : Quiet e (e.respawn s) :=
  quiet_spawn e trivial

section Restore

variable (s : Session) (stored : Except Error Unit)

/-- An undo puts `s` back and drops its guard; the rest of it is quiet. -/
theorem restoreSession_eq :
    e.restoreSession s stored =
      let e₁ := e.noteStored s stored
      let e₂ := { e₁ with undo := e₁.undo.dropLast, pendingDeletes := dropKey e₁.pendingDeletes s.id,
                          tasks := orphanTasks e₁.tasks s.id false }.insertSession s
      (({ e₂ with animations := e₂.animations.start .resuming s.id e₂.clock }.cacheDrop s.id
        .preview).selectSession s.id).1.scheduleSave.respawn s := rfl

theorem quiet_restoreTail (e₂ : Engine) :
    Quiet e₂ ((({ e₂ with animations := e₂.animations.start .resuming s.id e₂.clock }.cacheDrop s.id
      .preview).selectSession s.id).1.scheduleSave.respawn s) := by
  refine Quiet.trans ?_ (quiet_respawn _ _)
  refine Quiet.trans ?_ (quiet_scheduleSave _)
  refine Quiet.trans ?_ (quiet_selectSession _ _)
  exact (quiet_animations _ _).trans (quiet_cacheDrop _ _ _)

theorem steady_restoreSession : Steady e (e.restoreSession s stored) := by
  have hq := quiet_noteStored e s stored
  rw [restoreSession_eq]
  dsimp only
  refine Steady.of_prefix (noteStored_jobs e s stored) hq.ids hq.reloadVersion hq.saveSeq
    hq.reloading hq.forceSaved ?_
  -- forgetting the undo entry and the guard touches nothing a step queues on
  refine Steady.of_prefix ?_ ?_ ?_ ?_ ?_ ?_
    ((steady_insertSession _ s).trans_quiet (quiet_restoreTail s _))
  · rfl
  · rfl
  · rfl
  · exact Nat.le_refl _
  · rfl
  · rfl

theorem mem_ids_restoreSession (x : String) :
    x ∈ (e.restoreSession s stored).sessions.map (·.id) ↔
      x ∈ e.sessions.map (·.id) ∨ x = s.id := by
  rw [restoreSession_eq]
  dsimp only
  rw [(quiet_restoreTail s _).ids, mem_ids_insertSession, (quiet_noteStored e s stored).ids]

theorem mem_pendingDeletes_restoreSession (p : String × Bool) :
    p ∈ (e.restoreSession s stored).pendingDeletes ↔ p ∈ e.pendingDeletes ∧ p.1 ≠ s.id := by
  rw [restoreSession_eq]
  dsimp only
  rw [(quiet_restoreTail s _).pendingDeletes, (frame_insertSession _ _).pendingDeletes,
    mem_dropKey, (quiet_noteStored e s stored).pendingDeletes]

theorem restoreSession_forceSaved :
    (e.restoreSession s stored).forceSaved = e.forceSaved := by
  rw [restoreSession_eq]
  dsimp only
  rw [(quiet_restoreTail s _).forceSaved, (frame_insertSession _ _).forceSaved]
  exact (quiet_noteStored e s stored).forceSaved

end Restore

/-! ### Stored removals -/

theorem settleDelete_eq (e : Engine) (id : String) :
    ∃ pd, e.settleDelete id = { e with pendingDeletes := pd } := by
  unfold settleDelete
  split
  · exact ⟨_, rfl⟩
  · exact ⟨_, rfl⟩

theorem foldl_settleDelete_eq (ids : List String) (e : Engine) :
    ∃ pd, ids.foldl settleDelete e = { e with pendingDeletes := pd } := by
  induction ids generalizing e with
  | nil => exact ⟨e.pendingDeletes, rfl⟩
  | cons id ids ih =>
    obtain ⟨pd₁, h₁⟩ := settleDelete_eq e id
    obtain ⟨pd₂, h₂⟩ := ih (e.settleDelete id)
    refine ⟨pd₂, ?_⟩
    rw [List.foldl_cons, h₂, h₁]

theorem mem_settleDelete_of_ne (e : Engine) (id : String) {p : String × Bool}
    (hp : p ∈ e.pendingDeletes) (hk : p.1 ≠ id) : p ∈ (e.settleDelete id).pendingDeletes := by
  unfold settleDelete
  split
  · exact List.mem_map.mpr ⟨p, hp, by simp [hk]⟩
  · exact (mem_dropKey _ _).mpr ⟨hp, hk⟩

theorem mem_foldl_settleDelete_of_not_mem (ids : List String) (e : Engine) {p : String × Bool}
    (hp : p ∈ e.pendingDeletes) (hk : p.1 ∉ ids) :
    p ∈ (ids.foldl settleDelete e).pendingDeletes := by
  induction ids generalizing e with
  | nil => exact hp
  | cons id ids ih =>
    rw [List.mem_cons, not_or] at hk
    exact ih _ (mem_settleDelete_of_ne e id hp hk.1) hk.2

theorem mem_foldl_settleDelete_of_reloading (ids : List String) (e : Engine) {x : String}
    {b : Bool} (h : e.reloading = true) (hp : (x, b) ∈ e.pendingDeletes) (hx : x ∈ ids) :
    (x, true) ∈ (ids.foldl settleDelete e).pendingDeletes := by
  induction ids generalizing e b with
  | nil => exact absurd hx List.not_mem_nil
  | cons id ids ih =>
    have hstep : (x, true) ∈ (e.settleDelete id).pendingDeletes ∨ x ≠ id := by
      by_cases hxi : x = id
      · subst hxi
        left
        unfold settleDelete
        rw [if_pos h]
        exact List.mem_map.mpr ⟨(x, b), hp, by simp⟩
      · exact Or.inr hxi
    obtain ⟨pd, hpd⟩ := settleDelete_eq e id
    have hr : (e.settleDelete id).reloading = true := by rw [hpd]; exact h
    rw [List.foldl_cons]
    by_cases hin : x ∈ ids
    · rcases hstep with hstep | hne
      · exact ih _ hr hstep hin
      · exact ih _ hr (mem_settleDelete_of_ne e id hp hne) hin
    · have hxi : x = id := (List.mem_cons.mp hx).resolve_right hin
      exact mem_foldl_settleDelete_of_not_mem ids _
        (hstep.resolve_right (fun hne => hne hxi)) hin

section Persisted

variable (ids : List String) (result : Except Error Unit)

theorem quiet_noteRemoval : Quiet e (e.noteRemoval result) := by
  unfold noteRemoval
  split
  · exact Quiet.refl e
  · exact quiet_showBanner _ _

theorem noteRemoval_eq : ∃ banner, e.noteRemoval result = { e with banner } := by
  unfold noteRemoval
  split
  · exact ⟨e.banner, rfl⟩
  · exact ⟨_, rfl⟩

/-- A stored removal changes only the guards, and shows a banner if it failed. -/
theorem onDeletesPersisted_eq :
    ∃ banner pd, e.onDeletesPersisted ids result = { e with banner, pendingDeletes := pd } := by
  obtain ⟨banner, hb⟩ := noteRemoval_eq (e := e) result
  obtain ⟨pd, hpd⟩ := foldl_settleDelete_eq ids (e.noteRemoval result)
  refine ⟨banner, pd, ?_⟩
  unfold onDeletesPersisted
  rw [hpd, hb]

theorem steady_onDeletesPersisted : Steady e (e.onDeletesPersisted ids result) := by
  obtain ⟨banner, pd, h⟩ := onDeletesPersisted_eq (e := e) ids result
  rw [h]
  exact ⟨Queues.of_jobs rfl (Nat.le_refl _) rfl, rfl, fun _ => rfl⟩

theorem onDeletesPersisted_sessions :
    (e.onDeletesPersisted ids result).sessions = e.sessions := by
  obtain ⟨banner, pd, h⟩ := onDeletesPersisted_eq (e := e) ids result
  rw [h]

theorem onDeletesPersisted_forceSaved :
    (e.onDeletesPersisted ids result).forceSaved = e.forceSaved := by
  obtain ⟨banner, pd, h⟩ := onDeletesPersisted_eq (e := e) ids result
  rw [h]

/-- A stored removal leaves the guards of the other ids alone. -/
theorem mem_pendingDeletes_onDeletesPersisted {p : String × Bool} (hp : p ∈ e.pendingDeletes)
    (hk : p.1 ∉ ids) : p ∈ (e.onDeletesPersisted ids result).pendingDeletes :=
  mem_foldl_settleDelete_of_not_mem ids _
    ((quiet_noteRemoval (e := e) result).pendingDeletes ▸ hp) hk

/-- During a reload a stored removal marks its guards to go once the reload is over. -/
theorem onDeletesPersisted_marks {x : String} {b : Bool} (h : e.reloading = true)
    (hp : (x, b) ∈ e.pendingDeletes) (hx : x ∈ ids) :
    (x, true) ∈ (e.onDeletesPersisted ids result).pendingDeletes := by
  have hq := quiet_noteRemoval (e := e) result
  exact mem_foldl_settleDelete_of_reloading ids _ (hq.reloading.trans h)
    (hq.pendingDeletes ▸ hp) hx

end Persisted

/-! ### Reloads -/

theorem startReload_eq (e : Engine) :
    e.startReload =
      { e with reloadVersion := e.reloadVersion + 1, reloading := true,
               restore := if e.restore.isNone then some e.captureRestore else e.restore }.spawn
        (.load (e.reloadVersion + 1)) := rfl

/-- Taking in one loaded session keeps the ids taken in step with the sessions, and takes its
id unless it is guarded. -/
theorem admitLoaded_spec (e : Engine) (acc : List Session × List String × Bool) (s : Session)
    (hseen : acc.2.1 = acc.1.map (·.id)) :
    (e.admitLoaded acc s).2.1 = (e.admitLoaded acc s).1.map (·.id) ∧
      ∀ x, x ∈ (e.admitLoaded acc s).1.map (·.id) ↔
        x ∈ acc.1.map (·.id) ∨ (x = s.id ∧ (e.pendingDeletes.lookup x).isSome = false) := by
  obtain ⟨out, seen, changed⟩ := acc
  simp only at hseen
  subst hseen
  unfold admitLoaded
  dsimp only
  split
  · next hg =>
    refine ⟨rfl, fun x => ⟨Or.inl, ?_⟩⟩
    rintro (hx | ⟨rfl, hx⟩)
    · exact hx
    · rw [hg] at hx
      exact absurd hx Bool.noConfusion
  · next hg =>
    split
    · next hc =>
      refine ⟨rfl, fun x => ⟨Or.inl, ?_⟩⟩
      rintro (hx | ⟨rfl, -⟩)
      · exact hx
      · exact List.contains_iff_mem.mp hc
    · -- the session keeps its id when its live status is carried over
      have hid : (e.withLiveStatus s).id = s.id := by
        unfold withLiveStatus
        split <;> rfl
      refine ⟨by simp [hid], fun x => ?_⟩
      simp only [List.map_append, List.map_cons, List.map_nil, List.mem_append,
        List.mem_singleton, hid]
      constructor
      · rintro (hx | rfl)
        · exact Or.inl hx
        · exact Or.inr ⟨rfl, eq_false_of_ne_true hg⟩
      · rintro (hx | ⟨rfl, -⟩)
        · exact Or.inl hx
        · exact Or.inr rfl

theorem foldl_admitLoaded (e : Engine) (l : List Session) (acc : List Session × List String × Bool)
    (hseen : acc.2.1 = acc.1.map (·.id)) :
    (l.foldl e.admitLoaded acc).2.1 = (l.foldl e.admitLoaded acc).1.map (·.id) ∧
      ∀ x, x ∈ (l.foldl e.admitLoaded acc).1.map (·.id) ↔
        x ∈ acc.1.map (·.id) ∨
          (x ∈ l.map (·.id) ∧ (e.pendingDeletes.lookup x).isSome = false) := by
  induction l generalizing acc with
  | nil => exact ⟨hseen, fun x => by simp⟩
  | cons s l ih =>
    obtain ⟨hstep, hmem⟩ := admitLoaded_spec e acc s hseen
    obtain ⟨hseen', hmem'⟩ := ih _ hstep
    refine ⟨hseen', fun x => ?_⟩
    rw [List.foldl_cons, hmem', hmem, List.map_cons, List.mem_cons]
    constructor
    · rintro ((hx | ⟨rfl, hg⟩) | ⟨hx, hg⟩)
      · exact Or.inl hx
      · exact Or.inr ⟨Or.inl rfl, hg⟩
      · exact Or.inr ⟨Or.inr hx, hg⟩
    · rintro (hx | ⟨rfl | hx, hg⟩)
      · exact Or.inl (Or.inl hx)
      · exact Or.inl (Or.inr ⟨rfl, hg⟩)
      · exact Or.inr ⟨hx, hg⟩

theorem foldl_mergeKept (l : List Session) (acc : List Session × List String × Bool)
    (hseen : acc.2.1 = acc.1.map (·.id)) :
    (l.foldl mergeKept acc).2.1 = (l.foldl mergeKept acc).1.map (·.id) ∧
      ∀ x, x ∈ (l.foldl mergeKept acc).1.map (·.id) ↔
        x ∈ acc.1.map (·.id) ∨ x ∈ l.map (·.id) := by
  induction l generalizing acc with
  | nil => exact ⟨hseen, fun x => by simp⟩
  | cons s l ih =>
    rw [List.foldl_cons]
    by_cases hc : acc.2.1.contains s.id
    · -- a session with its id is there already
      have hstep : mergeKept acc s = acc := by
        unfold mergeKept
        exact if_pos hc
      have hin : s.id ∈ acc.1.map (·.id) := hseen ▸ List.contains_iff_mem.mp hc
      obtain ⟨hseen', hmem'⟩ := ih acc hseen
      refine ⟨by rw [hstep]; exact hseen', fun x => ?_⟩
      rw [hstep, hmem', List.map_cons, List.mem_cons]
      constructor
      · rintro (hx | hx)
        · exact Or.inl hx
        · exact Or.inr (Or.inr hx)
      · rintro (hx | rfl | hx)
        · exact Or.inl hx
        · exact Or.inl hin
        · exact Or.inr hx
    · have hstep : mergeKept acc s = (acc.1 ++ [s], acc.2.1 ++ [s.id], true) := by
        unfold mergeKept
        exact if_neg hc
      obtain ⟨hseen', hmem'⟩ := ih (acc.1 ++ [s], acc.2.1 ++ [s.id], true) (by simp [hseen])
      refine ⟨by rw [hstep]; exact hseen', fun x => ?_⟩
      rw [hstep, hmem', List.map_cons, List.mem_cons, List.map_append, List.mem_append]
      simp only [List.map_cons, List.map_nil, List.mem_singleton]
      constructor
      · rintro ((hx | rfl) | hx)
        · exact Or.inl hx
        · exact Or.inr (Or.inl rfl)
        · exact Or.inr (Or.inr hx)
      · rintro (hx | rfl | hx)
        · exact Or.inl (Or.inl hx)
        · exact Or.inl (Or.inr rfl)
        · exact Or.inr hx

theorem retitle_ids (acc : List Session × Bool) (rename : String × String) :
    (retitle acc rename).1.map (·.id) = acc.1.map (·.id) := by
  unfold retitle
  dsimp only
  split
  · split
    · -- a new title keeps the id
      apply List.ext_getElem (by simp)
      intro j h₁ h₂
      simp only [List.getElem_map, List.getElem_modify]
      split <;> rfl
    · rfl
  · rfl

theorem foldl_retitle_ids (l : List (String × String)) (acc : List Session × Bool) :
    (l.foldl retitle acc).1.map (·.id) = acc.1.map (·.id) := by
  induction l generalizing acc with
  | nil => rfl
  | cons rename l ih => rw [List.foldl_cons, ih, retitle_ids]

theorem mem_ids_reloadedSessions (e : Engine) (loaded : List Session) (x : String) :
    x ∈ (e.reloadedSessions loaded).1.map (·.id) ↔
      (x ∈ loaded.map (·.id) ∧ (e.pendingDeletes.lookup x).isSome = false) ∨
        x ∈ e.forceSaved.map (·.id) := by
  unfold reloadedSessions loadedSessions
  dsimp only
  obtain ⟨hseen, hload⟩ := foldl_admitLoaded e loaded ([], [], false) rfl
  obtain ⟨-, hmerge⟩ := foldl_mergeKept e.forceSaved _ hseen
  rw [foldl_retitle_ids, hmerge, hload]
  simp

/-- Installing a snapshot replaces the sessions and the tasks, clears what was kept aside
during the reload, and otherwise changes only the view and the caches. -/
theorem install_fst (e : Engine) (snap : Snapshot) (r : Restore) :
    ∃ (groups : GroupTree) (rows : List Row) (selected offset : Nat) (cache : TtlCache CacheValue)
      (fault : Option String),
      (e.install snap r).1 =
        { e with sessions := (e.reloadedSessions snap.sessions).1, tasks := snap.tasks,
                 forceSaved := [], pendingTitles := [], groups, rows, selected, offset,
                 cache, fault } := by
  unfold install
  dsimp only
  obtain ⟨g, rs, sel, off, f, hv⟩ := view_applyRestore
    { e with sessions := (e.reloadedSessions snap.sessions).1, tasks := snap.tasks,
             groups := ((GroupTree.ofParts snap.groups (e.reloadedSessions snap.sessions).1).mergeExpansion
               r.expansion).1,
             forceSaved := [], pendingTitles := [],
             rows := buildRows (e.reloadedSessions snap.sessions).1
               ((GroupTree.ofParts snap.groups (e.reloadedSessions snap.sessions).1).mergeExpansion
                 r.expansion).1 } r
  rw [hv]
  exact ⟨g, rs, sel, off, _, f, rfl⟩

theorem foldl_insertKept (l : List Session) (acc : Engine × Bool) :
    Frame acc.1 (l.foldl insertKept acc).1 ∧
      ∀ x, x ∈ (l.foldl insertKept acc).1.sessions.map (·.id) ↔
        x ∈ acc.1.sessions.map (·.id) ∨ x ∈ l.map (·.id) := by
  induction l generalizing acc with
  | nil => exact ⟨Frame.refl _, fun x => by simp⟩
  | cons s l ih =>
    rw [List.foldl_cons]
    by_cases hs : (acc.1.session? s.id).isSome
    · have hstep : insertKept acc s = acc := by
        unfold insertKept
        exact if_pos hs
      have hin := (session?_isSome_iff _ _).mp hs
      rw [hstep]
      obtain ⟨hframe, hmem⟩ := ih acc
      refine ⟨hframe, fun x => ?_⟩
      rw [hmem, List.map_cons, List.mem_cons]
      constructor
      · rintro (hx | hx)
        · exact Or.inl hx
        · exact Or.inr (Or.inr hx)
      · rintro (hx | rfl | hx)
        · exact Or.inl hx
        · exact Or.inl hin
        · exact Or.inr hx
    · have hstep : insertKept acc s = (acc.1.insertSession s, true) := by
        unfold insertKept
        exact if_neg hs
      rw [hstep]
      obtain ⟨hframe, hmem⟩ := ih (acc.1.insertSession s, true)
      refine ⟨(frame_insertSession _ _).trans hframe, fun x => ?_⟩
      rw [hmem, mem_ids_insertSession, List.map_cons, List.mem_cons]
      constructor
      · rintro ((hx | rfl) | hx)
        · exact Or.inl hx
        · exact Or.inr (Or.inl rfl)
        · exact Or.inr (Or.inr hx)
      · rintro (hx | rfl | hx)
        · exact Or.inl (Or.inl hx)
        · exact Or.inl (Or.inr rfl)
        · exact Or.inr hx

theorem keepForceSaved_eq (e : Engine) :
    e.keepForceSaved =
      let r := e.forceSaved.foldl insertKept ({ e with forceSaved := [] }, false)
      if r.2 then r.1.scheduleSave else r.1 := rfl

theorem quiet_saveIf (e : Engine) (c : Bool) : Quiet e (if c then e.scheduleSave else e) := by
  split
  · exact quiet_scheduleSave e
  · exact Quiet.refl e

theorem keepForceSaved_spec (e : Engine) :
    Queues e e.keepForceSaved ∧ e.keepForceSaved.reloading = e.reloading ∧
      e.keepForceSaved.forceSaved = [] ∧
      e.keepForceSaved.pendingDeletes = e.pendingDeletes ∧
      ∀ x, x ∈ e.keepForceSaved.sessions.map (·.id) ↔
        x ∈ e.sessions.map (·.id) ∨ x ∈ e.forceSaved.map (·.id) := by
  rw [keepForceSaved_eq]
  dsimp only
  obtain ⟨hframe, hmem⟩ := foldl_insertKept e.forceSaved ({ e with forceSaved := [] }, false)
  have hsave := quiet_saveIf (e.forceSaved.foldl insertKept ({ e with forceSaved := [] }, false)).1
    (e.forceSaved.foldl insertKept ({ e with forceSaved := [] }, false)).2
  have hq : Queues e (if (e.forceSaved.foldl insertKept ({ e with forceSaved := [] }, false)).2
      then (e.forceSaved.foldl insertKept ({ e with forceSaved := [] }, false)).1.scheduleSave
      else (e.forceSaved.foldl insertKept ({ e with forceSaved := [] }, false)).1) := by
    -- clearing what was kept aside touches nothing a step queues on
    refine Queues.of_prefix ?_ ?_ ?_ ?_ ((Queues.of_jobs hframe.reloadVersion
      (Nat.le_of_eq hframe.saveSeq.symm) hframe.jobs).trans_quiet hsave)
    · rfl
    · rfl
    · rfl
    · exact Nat.le_refl _
  refine ⟨hq, hsave.reloading.trans hframe.reloading,
    hsave.forceSaved.trans hframe.forceSaved, hsave.pendingDeletes.trans hframe.pendingDeletes,
    fun x => ?_⟩
  rw [hsave.ids, hmem]

theorem mem_dropLandedDeletes (e : Engine) (p : String × Bool) :
    p ∈ e.dropLandedDeletes.pendingDeletes ↔ p ∈ e.pendingDeletes ∧ p.2 = false := by
  simp [dropLandedDeletes]

theorem quiet_fetchSelected (e : Engine) :
    Quiet e (match e.selectedId? with
      | some id => e.fetchSideData id
      | none => e) := by
  split
  · exact quiet_fetchSideData _ _
  · exact Quiet.refl e

variable {version : Nat}

/-- A load that is not the latest, or that lands outside a reload, is dropped. -/
theorem finishReload_of_stale (result : Except Error Snapshot)
    (h : ¬(version = e.reloadVersion ∧ e.reloading = true)) :
    e.finishReload version result = e := by
  unfold finishReload
  rw [if_pos]
  cases hr : e.reloading
  · simp
  · have hv : version ≠ e.reloadVersion := fun hv => h ⟨hv, hr⟩
    simp [hv]

theorem finishReload_error (hv : version = e.reloadVersion) (hr : e.reloading = true)
    (err : Error) :
    e.finishReload version (.error err) =
      (let e₁ := { e with restore := none, reloading := false, pendingTitles := [] }.dropLandedDeletes
       if err.isNotFound then e₁ else e₁.showBanner ("Failed to reload sessions: " ++ err.text)
      ).keepForceSaved := by
  unfold finishReload
  rw [if_neg (by simp [hv, hr])]

theorem finishReload_ok (hv : version = e.reloadVersion) (hr : e.reloading = true)
    (snap : Snapshot) :
    ∃ r : Restore, e.finishReload version (.ok snap) =
      let e₂ := { ({ e with restore := none }.install snap r).1 with reloading := false
                }.dropLandedDeletes
      let e₃ := match e₂.selectedId? with
        | some id => e₂.fetchSideData id
        | none => e₂
      if ({ e with restore := none }.install snap r).2 then e₃.scheduleSave else e₃ := by
  unfold finishReload
  rw [if_neg (by simp [hv, hr])]
  exact ⟨_, rfl⟩

/-- The latest load landing during its reload ends the reload: the sessions kept aside are
taken in, the guards of stored removals go, and only saves are queued. -/
theorem finishReload_current (hv : version = e.reloadVersion) (hr : e.reloading = true)
    (result : Except Error Snapshot) :
    Queues e (e.finishReload version result) ∧ (e.finishReload version result).reloading = false ∧
      (e.finishReload version result).forceSaved = [] ∧
      ∀ p, p ∈ (e.finishReload version result).pendingDeletes ↔
        p ∈ e.pendingDeletes ∧ p.2 = false := by
  cases result with
  | error err =>
    rw [finishReload_error hv hr err]
    dsimp only
    generalize hd : { e with restore := none, reloading := false, pendingTitles := [] }.dropLandedDeletes = d
    -- the banner touches none of the bookkeeping
    have hb : Quiet d (if err.isNotFound then d
        else d.showBanner ("Failed to reload sessions: " ++ err.text)) := by
      split
      · exact Quiet.refl d
      · exact quiet_showBanner _ _
    have hjobs : (if err.isNotFound then d
        else d.showBanner ("Failed to reload sessions: " ++ err.text)).jobs = d.jobs := by
      split <;> rfl
    obtain ⟨hq, hrel, hkept, hpd, -⟩ := keepForceSaved_spec (if err.isNotFound then d
      else d.showBanner ("Failed to reload sessions: " ++ err.text))
    subst hd
    refine ⟨Queues.of_prefix hjobs hb.ids hb.reloadVersion hb.saveSeq hq, ?_, hkept, fun p => ?_⟩
    · rw [hrel, hb.reloading]
      rfl
    · rw [hpd, hb.pendingDeletes, mem_dropLandedDeletes]
  | ok snap =>
    obtain ⟨r, heq⟩ := finishReload_ok hv hr snap
    rw [heq]
    dsimp only
    obtain ⟨g, rs, sel, off, c, f, hI⟩ := install_fst { e with restore := none } snap r
    rw [hI]
    refine ⟨?_, ?_, ?_, fun p => ?_⟩
    · refine Queues.trans_quiet ?_ (quiet_saveIf _ _)
      refine Queues.trans_quiet ?_ (quiet_fetchSelected _)
      exact Queues.of_jobs rfl (Nat.le_refl _) rfl
    · rw [(quiet_saveIf _ _).reloading, (quiet_fetchSelected _).reloading]
      rfl
    · rw [(quiet_saveIf _ _).forceSaved, (quiet_fetchSelected _).forceSaved]
      rfl
    · rw [(quiet_saveIf _ _).pendingDeletes, (quiet_fetchSelected _).pendingDeletes,
        mem_dropLandedDeletes]

/-- A successful reload holds the loaded sessions that are not guarded and those kept aside. -/
theorem mem_ids_finishReload_ok (hv : version = e.reloadVersion) (hr : e.reloading = true)
    (snap : Snapshot) (x : String) :
    x ∈ (e.finishReload version (.ok snap)).sessions.map (·.id) ↔
      (x ∈ snap.sessions.map (·.id) ∧ (e.pendingDeletes.lookup x).isSome = false) ∨
        x ∈ e.forceSaved.map (·.id) := by
  obtain ⟨r, heq⟩ := finishReload_ok hv hr snap
  rw [heq]
  dsimp only
  obtain ⟨g, rs, sel, off, c, f, hI⟩ := install_fst { e with restore := none } snap r
  rw [hI, (quiet_saveIf _ _).ids, (quiet_fetchSelected _).ids]
  exact mem_ids_reloadedSessions { e with restore := none } snap.sessions x

/-- A failed reload keeps the sessions and takes in those kept aside. -/
theorem mem_ids_finishReload_error (hv : version = e.reloadVersion) (hr : e.reloading = true)
    (err : Error) (x : String) :
    x ∈ (e.finishReload version (.error err)).sessions.map (·.id) ↔
      x ∈ e.sessions.map (·.id) ∨ x ∈ e.forceSaved.map (·.id) := by
  rw [finishReload_error hv hr err]
  dsimp only
  rw [(keepForceSaved_spec _).2.2.2.2 x]
  split <;> rfl

/-! ### Handling a message -/

theorem quiet_clock (e : Engine) (clock : Nat) : Quiet e { e with clock } :=
  Quiet.of_eq rfl rfl rfl rfl rfl (Nat.le_refl _) rfl rfl

/-- An undo restores the latest deleted session, if there is one to restore. -/
theorem react_restored (e : Engine) (stored : Except Error Unit) :
    (∃ s, e.undoTarget? = some s ∧
        e.react (.lifecycle .restored) stored = e.restoreSession s stored) ∨
      (e.undoTarget? = none ∧ e.react (.lifecycle .restored) stored = e) := by
  cases h : e.undoTarget? with
  | none => exact .inr ⟨rfl, by simp [react, h]⟩
  | some s => exact .inl ⟨s, rfl, by simp [react, h]⟩

/-- The handlers of the messages that do not touch the bookkeeping are quiet. -/
theorem quiet_react (e : Engine) {m : Message} (stored : Except Error Unit)
    (hm : m.touchesBookkeeping = false) : Quiet e (e.react m stored) := by
  cases m <;> simp only [Message.touchesBookkeeping, Bool.true_eq_false] at hm
  case statusUpdate id => exact quiet_onStatusUpdate e id
  case tick => exact quiet_tick e
  case previewDebounce id => exact quiet_onPreviewDebounce e id
  case hookStatus ev => exact quiet_onHookStatus e ev
  case previewCaptured id r => exact quiet_onPreviewCaptured e id r
  case dirtyChecked id r => exact quiet_onDirtyChecked e id r
  case remoteChecked id r => exact quiet_onRemoteChecked e id r
  case reviewFetched id r => exact quiet_onReviewFetched e id r
  case statusesProbed r => exact quiet_onStatusesProbed e r
  case saveFailed text => exact quiet_showBanner _ _
  case failure text => exact quiet_showBanner _ _

/-- Every handler but those of a storage change and of a finished load keeps the reload
state. -/
theorem steady_react (e : Engine) (m : Message) (stored : Except Error Unit)
    (hs : m ≠ .storageChanged) (hl : ∀ v r, m ≠ .reloadLoaded v r) :
    Steady e (e.react m stored) := by
  cases hm : m.touchesBookkeeping
  · exact (quiet_react e stored hm).steady
  cases m <;> simp only [Message.touchesBookkeeping, Bool.false_eq_true] at hm
  case storageChanged => exact absurd rfl hs
  case lifecycle ev =>
    cases ev with
    | created s => exact steady_addSession s .launching stored
    | forked s => exact steady_addSession s .forking stored
    | deleted id kill => exact steady_deleteSessions [id] kill
    | bulkDeleted ids kill => exact steady_deleteSessions ids kill
    | restored =>
      rcases react_restored e stored with ⟨s, -, he⟩ | ⟨-, he⟩
      · rw [he]
        exact steady_restoreSession _ _
      · rw [he]
        exact (Quiet.refl e).steady
  case reloadLoaded v r => exact absurd rfl (hl v r)
  case deletesPersisted ids r => exact steady_onDeletesPersisted ids r

/-- Handling a message that neither reports a storage change nor a finished load keeps the
reload state. -/
theorem steady_take (e : Engine) (m : Message) (stored : Except Error Unit) (clock : Nat)
    (hs : m ≠ .storageChanged) (hl : ∀ v r, m ≠ .reloadLoaded v r) :
    Steady e (e.take (.message m stored clock)) := by
  refine Steady.of_prefix ?_ ?_ ?_ ?_ ?_ ?_ (steady_react { e with clock } m stored hs hl)
  · rfl
  · rfl
  · rfl
  · exact Nat.le_refl _
  · rfl
  · rfl

/-- Every call on the view is quiet. -/
theorem quiet_take_call (e : Engine) (c : Call) (clock : Nat) :
    Quiet e (e.take (.call c clock)) :=
  (quiet_clock e clock).trans (quiet_call _ c)

/-! ### Starting -/

/-- Starting installs the snapshot, clearing what was kept aside, and then only fetches. -/
theorem boot_spec (e : Engine) (snap : Snapshot) (v : ViewState) :
    ∃ e₁ : Engine, Quiet e₁ (e.boot snap v) ∧ e₁.jobs = e.jobs ∧ e₁.reloading = e.reloading ∧
      e₁.reloadVersion = e.reloadVersion ∧ e₁.saveSeq = e.saveSeq ∧ e₁.forceSaved = [] ∧
      e₁.pendingDeletes = e.pendingDeletes ∧
      e₁.sessions = (e.reloadedSessions snap.sessions).1 := by
  unfold boot
  dsimp only
  obtain ⟨g, rs, sel, off, cache, f, hI⟩ := install_fst e snap (Restore.ofViewState v)
  rw [hI]
  exact ⟨_, quiet_fetchSelected _, rfl, rfl, rfl, rfl, rfl, rfl, rfl⟩

end Engine

end AgentDeck
