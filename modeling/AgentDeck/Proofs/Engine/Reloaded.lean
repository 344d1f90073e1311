import AgentDeck.Proofs.Engine.Orphans
import AgentDeck.Proofs.Deck.Added

/-!
What a reload leaves.

A reload installs the sessions it read, without those guarded by a delete and without repeats,
adds the sessions stored meanwhile, lays the renames made meanwhile over them, and says whether
that changed anything. When it says nothing changed, the engine holds the table of what was read
(`sessionTable_reloadedSessions`), and every session kept aside was read
(`reloadedSessions_changed`). So the latest load landing ends the reload owing a save, or holding
what it read (`Engine.finishReload_settles`); a fresh engine starts holding what it read
(`Engine.boot_holds`). While a reload runs, every queued save is older than it, so none is current
(`Engine.SavesOlder`, `Engine.carried_of_older`), and no handler queues a removal: deletes and undo
are refused (`Engine.removals_take_of_reloading`).
-/

namespace AgentDeck

/-! ### Folds that raise a flag -/

section Flag

variable {α β : Type} {f : β → α → β} (flag : β → Bool)

theorem foldl_flag (hkeep : ∀ b a, flag b = true → flag (f b a) = true) (l : List α) :
    ∀ b : β, flag b = true → flag (l.foldl f b) = true := by
  induction l with
  | nil => exact fun _ h => h
  | cons a l ih => exact fun b h => ih (f b a) (hkeep b a h)

theorem foldl_eq_of_flag (hkeep : ∀ b a, flag b = true → flag (f b a) = true)
    (hf : ∀ b a, f b a = b ∨ flag (f b a) = true) (l : List α) :
    ∀ b : β, flag (l.foldl f b) = false → l.foldl f b = b := by
  induction l with
  | nil => exact fun _ _ => rfl
  | cons a l ih =>
    intro b h
    rw [List.foldl_cons] at h ⊢
    rcases hf b a with hb | hb
    · rw [hb] at h ⊢
      exact ih b h
    · -- a raised flag would still be up at the end
      rw [foldl_flag flag hkeep l _ hb] at h
      exact absurd h Bool.noConfusion

end Flag

/-! ### The sessions a reload installs -/

theorem sessionTable_cons_stripStatus {s s' : Session} (h : s'.stripStatus = s.stripStatus)
    (ss : List Session) : sessionTable (s' :: ss) = sessionTable (s :: ss) := by
  have hid : s'.id = s.id := by rw [← stripStatus_id s', h, stripStatus_id]
  funext x
  rw [sessionTable_cons, sessionTable_cons, hid, h]

theorem sessionTable_append_cons_of_mem {ss l : List Session} {s : Session}
    (h : s.id ∈ ss.map (·.id)) : sessionTable (ss ++ s :: l) = sessionTable (ss ++ l) := by
  funext x
  rw [sessionTable_append, sessionTable_append, sessionTable_cons]
  by_cases hx : s.id = x
  · -- the earlier session with that id answers first
    obtain ⟨t, ht⟩ := Option.isSome_iff_exists.mp (sessionTable_isSome.mpr (hx ▸ h))
    rw [ht]
    rfl
  · rw [if_neg hx]

namespace Engine

theorem withLiveStatus_stripStatus (e : Engine) (s : Session) :
    (e.withLiveStatus s).stripStatus = s.stripStatus := by
  unfold withLiveStatus
  split <;> rfl

theorem admitLoaded_cases (e : Engine) (acc : List Session × List String × Bool) (s : Session) :
    ((e.pendingDeletes.lookup s.id).isSome = true ∧ e.admitLoaded acc s = (acc.1, acc.2.1, true)) ∨
      (s.id ∈ acc.2.1 ∧ e.admitLoaded acc s = acc) ∨
      e.admitLoaded acc s =
        (acc.1 ++ [e.withLiveStatus s], acc.2.1 ++ [(e.withLiveStatus s).id], acc.2.2) := by
  obtain ⟨out, seen, changed⟩ := acc
  unfold admitLoaded
  dsimp only
  split
  · next hg => exact .inl ⟨hg, rfl⟩
  · split
    · next hc => exact .inr (.inl ⟨List.contains_iff_mem.mp hc, rfl⟩)
    · exact .inr (.inr rfl)

theorem admitLoaded_flag (e : Engine) (acc : List Session × List String × Bool) (s : Session)
    (h : acc.2.2 = true) : (e.admitLoaded acc s).2.2 = true := by
  -- a guarded session raises the flag; the other cases keep it
  rcases admitLoaded_cases e acc s with ⟨-, hs⟩ | ⟨-, hs⟩ | hs <;> rw [hs]
  · exact h
  · exact h

theorem foldl_admitLoaded_unguarded (e : Engine) (l : List Session)
    (acc : List Session × List String × Bool)
    (h : ∀ s ∈ l, (e.pendingDeletes.lookup s.id).isSome = false) :
    (l.foldl e.admitLoaded acc).2.2 = acc.2.2 := by
  induction l generalizing acc with
  | nil => rfl
  | cons s l ih =>
    rw [List.foldl_cons, ih _ fun t ht => h t (List.mem_cons_of_mem s ht)]
    rcases admitLoaded_cases e acc s with ⟨hg, -⟩ | ⟨-, hs⟩ | hs
    · rw [h s List.mem_cons_self] at hg
      exact absurd hg Bool.noConfusion
    · rw [hs]
    · rw [hs]

theorem sessionTable_foldl_admitLoaded (e : Engine) (l : List Session)
    (acc : List Session × List String × Bool) (hseen : acc.2.1 = acc.1.map (·.id))
    (hc : (l.foldl e.admitLoaded acc).2.2 = false) :
    sessionTable (l.foldl e.admitLoaded acc).1 = sessionTable (acc.1 ++ l) := by
  induction l generalizing acc with
  | nil => rw [List.foldl_nil, List.append_nil]
  | cons s l ih =>
    rw [List.foldl_cons] at hc ⊢
    have hseen' := (admitLoaded_spec e acc s hseen).1
    rw [ih _ hseen' hc]
    rcases admitLoaded_cases e acc s with ⟨-, hs⟩ | ⟨hmem, hs⟩ | hs
    · -- a guarded session raises the flag, and it would still be up
      rw [hs, foldl_flag (fun b : List Session × List String × Bool => b.2.2) (admitLoaded_flag e) l _
        rfl] at hc
      exact absurd hc Bool.noConfusion
    · rw [hs, sessionTable_append_cons_of_mem (hseen ▸ hmem)]
    · rw [hs, List.append_assoc, List.singleton_append]
      funext x
      rw [sessionTable_append, sessionTable_append,
        sessionTable_cons_stripStatus (withLiveStatus_stripStatus e s)]

theorem mergeKept_cases (acc : List Session × List String × Bool) (s : Session) :
    (s.id ∈ acc.2.1 ∧ mergeKept acc s = acc) ∨ (mergeKept acc s).2.2 = true := by
  unfold mergeKept
  split
  · next hc => exact .inl ⟨List.contains_iff_mem.mp hc, rfl⟩
  · exact .inr rfl

theorem mergeKept_flag (acc : List Session × List String × Bool) (s : Session)
    (h : acc.2.2 = true) : (mergeKept acc s).2.2 = true := by
  rcases mergeKept_cases acc s with ⟨-, hs⟩ | hs
  · rw [hs]
    exact h
  · exact hs

theorem retitle_cases (acc : List Session × Bool) (rename : String × String) :
    retitle acc rename = acc ∨ (retitle acc rename).2 = true := by
  unfold retitle
  dsimp only
  split
  · split
    · exact .inr rfl
    · exact .inl rfl
  · exact .inl rfl

theorem retitle_flag (acc : List Session × Bool) (rename : String × String) (h : acc.2 = true) :
    (retitle acc rename).2 = true := by
  rcases retitle_cases acc rename with hs | hs
  · rw [hs]
    exact h
  · exact hs

theorem foldl_mergeKept_changed (l : List Session) (acc : List Session × List String × Bool)
    {s : Session} (hs : s ∈ l) (hnew : s.id ∉ acc.2.1) : (l.foldl mergeKept acc).2.2 = true := by
  induction l generalizing acc with
  | nil => exact absurd hs List.not_mem_nil
  | cons t l ih =>
    rw [List.foldl_cons]
    rcases mergeKept_cases acc t with ⟨ht, heq⟩ | ht
    · -- `t` was there already, so it is not `s`
      have hts : s ≠ t := fun hst => hnew (hst ▸ ht)
      rw [heq]
      exact ih acc (List.mem_of_ne_of_mem hts hs) hnew
    · exact foldl_flag (fun b : List Session × List String × Bool => b.2.2) mergeKept_flag l _ ht

/-- **Nothing changed, nothing lost.** When a reload says it changed nothing, the sessions it
installs have the table of what it read. -/
theorem sessionTable_reloadedSessions (e : Engine) (loaded : List Session)
    (h : (e.reloadedSessions loaded).2 = false) :
    sessionTable (e.reloadedSessions loaded).1 = sessionTable loaded := by
  unfold reloadedSessions loadedSessions at h ⊢
  dsimp only at h ⊢
  -- no rename and no merge changed anything, so the sessions are those taken in
  have hr := foldl_eq_of_flag (fun b : List Session × Bool => b.2) retitle_flag retitle_cases
    e.pendingTitles _ h
  rw [hr] at h ⊢
  have hm := foldl_eq_of_flag (fun b : List Session × List String × Bool => b.2.2) mergeKept_flag
    (fun b a => (mergeKept_cases b a).imp (·.2) id) e.forceSaved _ h
  rw [hm] at h ⊢
  exact sessionTable_foldl_admitLoaded e loaded ([], [], false) rfl h

/-- A reload that did not read a session kept aside says that it changed something. -/
theorem reloadedSessions_changed (e : Engine) (loaded : List Session) {y : String}
    (hy : y ∈ e.forceSaved.map (·.id)) (hout : y ∉ loaded.map (·.id)) :
    (e.reloadedSessions loaded).2 = true := by
  obtain ⟨s, hs, rfl⟩ := List.mem_map.mp hy
  unfold reloadedSessions loadedSessions
  dsimp only
  obtain ⟨hseen, hload⟩ := foldl_admitLoaded e loaded ([], [], false) rfl
  refine foldl_flag (fun b : List Session × Bool => b.2) retitle_flag e.pendingTitles _ ?_
  refine foldl_mergeKept_changed e.forceSaved _ hs fun hin => ?_
  -- only what was read is taken in
  rw [hseen] at hin
  rcases (hload s.id).mp hin with hnil | hread
  · simp at hnil
  · exact hout hread.1

theorem reloadedSessions_fresh {e : Engine} (hd : e.pendingDeletes = []) (hf : e.forceSaved = [])
    (ht : e.pendingTitles = []) (loaded : List Session) : (e.reloadedSessions loaded).2 = false := by
  unfold reloadedSessions loadedSessions
  dsimp only
  rw [hf, ht, List.foldl_nil, List.foldl_nil]
  exact foldl_admitLoaded_unguarded e loaded _ fun s _ => by simp [hd]

theorem install_changed (e : Engine) (snap : Snapshot) (r : Restore)
    (h : (e.reloadedSessions snap.sessions).2 = true) : (e.install snap r).2 = true := by
  unfold install
  dsimp only
  rw [h, Bool.true_or, Bool.true_or]

/-! ### Starting and ending a reload -/

variable {e : Engine}

theorem still_fetchSelected (e : Engine) :
    Still e (match e.selectedId? with
      | some id => e.fetchSideData id
      | none => e) := by
  split
  · exact still_fetchSideData _ _
  · exact Still.refl e

/-- A fresh engine starts holding the table and the tasks it read, and queues only jobs that leave
the registry alone. -/
theorem boot_holds (e : Engine) (snap : Snapshot) (v : ViewState) (hd : e.pendingDeletes = [])
    (hf : e.forceSaved = []) (ht : e.pendingTitles = []) :
    ∃ e₁ : Engine, Still e₁ (e.boot snap v) ∧ e₁.jobs = e.jobs ∧ e₁.reloading = e.reloading ∧
      sessionTable e₁.sessions = sessionTable snap.sessions ∧ e₁.tasks = snap.tasks := by
  unfold boot
  dsimp only
  obtain ⟨g, rs, sel, off, c, f, hI⟩ := install_fst e snap (Restore.ofViewState v)
  rw [hI]
  exact ⟨_, still_fetchSelected _, rfl, rfl,
    sessionTable_reloadedSessions e snap.sessions (reloadedSessions_fresh hd hf ht snap.sessions),
    rfl⟩

/-- No save older than the reload is current. -/
theorem carried_of_older (ho : ∀ j ∈ e.jobs, j.Older e.reloadVersion) : e.Carried := by
  intro j hj hcur
  have hold := ho j hj
  cases j <;> simp only [Job.CurrentIn] at hcur
  case save =>
    simp only [Job.Older] at hold
    omega

theorem addSession_jobs_of_reloading (hr : e.reloading = true) (s : Session) (anim : Animation)
    (stored : Except Error Unit) : (e.addSession s anim stored).jobs = e.jobs := by
  rw [addSession_of_reloading s anim stored hr]
  exact noteStored_jobs e s stored

variable {version : Nat}

/-- **A reload ends settled.** The latest load landing with `snap` ends the reload with every
current save writing what the engine holds and no removal queued beyond the old jobs; unless a
save is owed, the engine holds the table and the tasks of `snap`, and every session kept aside was
in it. -/
theorem finishReload_settles (hv : version = e.reloadVersion) (hr : e.reloading = true)
    (ho : e.SavesOlder) (hs : ∀ j ∈ e.jobs, j.SavedBefore e) (snap : Snapshot) :
    (e.finishReload version (.ok snap)).reloading = false ∧
      (e.finishReload version (.ok snap)).Carried ∧
      (∀ j ∈ (e.finishReload version (.ok snap)).jobs, j.removals = [] ∨ j ∈ e.jobs) ∧
      ((e.finishReload version (.ok snap)).Owes ∨
        (sessionTable (e.finishReload version (.ok snap)).sessions = sessionTable snap.sessions ∧
          (e.finishReload version (.ok snap)).tasks = snap.tasks ∧
          ∀ y ∈ e.forceSaved.map (·.id), y ∈ snap.sessions.map (·.id))) := by
  obtain ⟨r, heq⟩ := finishReload_ok hv hr snap
  obtain ⟨g, rs, sel, off, c, f, hI⟩ := install_fst { e with restore := none } snap r
  rw [heq]
  dsimp only
  generalize hch : ({ e with restore := none }.install snap r).2 = changed
  generalize hi : ({ e with restore := none }.install snap r).1 = i₁ at hI
  generalize hE : { i₁ with reloading := false }.dropLandedDeletes = e₂
  -- what the install leaves: the old jobs, and the sessions and tasks it read
  have hj : e₂.jobs = e.jobs := by rw [← hE, hI]; rfl
  have hv₂ : e₂.reloadVersion = e.reloadVersion := by rw [← hE, hI]; rfl
  have hq₂ : e₂.saveSeq = e.saveSeq := by rw [← hE, hI]; rfl
  have hr₂ : e₂.reloading = false := by rw [← hE]; rfl
  have hs₂ : e₂.sessions = ({ e with restore := none }.reloadedSessions snap.sessions).1 := by
    rw [← hE, hI]; rfl
  have ht₂ : e₂.tasks = snap.tasks := by rw [← hE, hI]; rfl
  have hb₂ : ∀ j ∈ e₂.jobs, j.SavedBefore e₂ := by
    intro j hmem
    rw [hj] at hmem
    have hold := hs j hmem
    cases j <;> simp only [Job.SavedBefore] at hold ⊢
    case save => rw [hv₂, hq₂]; exact hold
  -- every old save is older than the reload that just ended
  have hc₂ : e₂.Carried := by
    refine carried_of_older fun j hmem => ?_
    rw [hj] at hmem
    rw [hv₂]
    exact ho hr j hmem
  have hst := Still.ite_stage (c := changed = true) (still_fetchSelected e₂) (still_scheduleSave _)
  refine ⟨hst.reloading.trans hr₂, hst.carried hb₂ hc₂, fun j hmem => ?_, ?_⟩
  · obtain ⟨new, hjn, hk⟩ := hst.jobs
    have hmem' : j ∈ e.jobs ++ new := by
      rw [← hj, ← hjn]
      exact hmem
    rcases List.mem_append.mp hmem' with hmem | hmem
    · exact .inr hmem
    · have hk' := hk j hmem
      cases j <;> simp only [Job.Keeps] at hk' <;> exact .inl rfl
  · cases changed
    · -- nothing changed: the engine holds what was read
      have hflag : ({ e with restore := none }.reloadedSessions snap.sessions).2 = false := by
        cases hf : ({ e with restore := none }.reloadedSessions snap.sessions).2
        · rfl
        · rw [install_changed _ snap r hf] at hch
          exact absurd hch Bool.noConfusion
      refine .inr ⟨hst.table.trans ?_, hst.tasks.trans ht₂, fun y hy => ?_⟩
      · rw [hs₂, sessionTable_reloadedSessions _ _ hflag]
      · by_contra hout
        rw [reloadedSessions_changed { e with restore := none } snap.sessions hy hout] at hflag
        exact absurd hflag Bool.noConfusion
    · -- the install changed something, and the save at the end writes it
      rw [if_pos rfl]
      have hsel := still_fetchSelected e₂
      exact .inl (owing_scheduleSave (hsel.reloading.trans hr₂) (hsel.savedBefore hb₂)).1

/-- During a reload no handler but that of the current load's answer queues a removal: deletes
and undo are refused. -/
theorem removals_take_of_reloading (hr : e.reloading = true) {i : Input}
    (hi : ∀ r stored clock, i ≠ .message (.reloadLoaded e.reloadVersion r) stored clock) :
    ∀ j ∈ (e.take i).jobs, j.removals = [] ∨ j ∈ e.jobs := by
  cases i with
  | call c clock => exact (quiet_take_call e c clock).removals
  | message m stored clock =>
    have hr' : ({ e with clock } : Engine).reloading = true := hr
    cases hm : m.touchesBookkeeping
    · exact ((quiet_clock e clock).trans (quiet_react _ stored hm)).removals
    cases m <;> simp only [Message.touchesBookkeeping, Bool.false_eq_true] at hm
    case storageChanged =>
      -- only the load of the new reload is queued
      intro j hj
      rcases List.mem_append.mp hj with hj | hj
      · exact .inr hj
      · rw [List.mem_singleton.mp hj]
        exact .inl rfl
    case lifecycle ev =>
      cases ev with
      | created s =>
        rw [take, react, addSession_jobs_of_reloading hr']
        exact fun j hj => .inr hj
      | forked s =>
        rw [take, react, addSession_jobs_of_reloading hr']
        exact fun j hj => .inr hj
      | deleted id kill =>
        rw [(take_refused hr rfl stored clock).2]
        exact fun j hj => .inr hj
      | bulkDeleted ids kill =>
        rw [(take_refused hr rfl stored clock).2]
        exact fun j hj => .inr hj
      | restored =>
        rw [(take_refused hr rfl stored clock).2]
        exact fun j hj => .inr hj
    case reloadLoaded v r =>
      -- an answer that is not the current one changes nothing but the clock
      have hv : ¬(v = e.reloadVersion ∧ e.reloading = true) := fun h =>
        hi r stored clock (by rw [h.1])
      exact (quiet_take_stale e r stored clock hv).removals
    case deletesPersisted ids r =>
      obtain ⟨banner, pd, he⟩ := onDeletesPersisted_eq (e := { e with clock }) ids r
      intro j hj
      rw [take, react, he] at hj
      exact .inr hj

/-! ### Inputs on either side of a reload -/

/-- Outside a reload, every input but a storage change leaves no reload running. -/
theorem reloading_take_of_idle (hr : e.reloading = false) {i : Input}
    (hi : ∀ stored clock, i ≠ .message .storageChanged stored clock) :
    (e.take i).reloading = false := by
  cases i with
  | call c clock => exact (quiet_take_call e c clock).reloading.trans hr
  | message m stored clock =>
    by_cases hl : ∃ v r, m = .reloadLoaded v r
    · obtain ⟨v, r, rfl⟩ := hl
      exact (quiet_take_stale e r stored clock (by simp [hr])).reloading.trans hr
    · have hs : m ≠ .storageChanged := fun h => hi stored clock (h ▸ rfl)
      exact (steady_take e m stored clock hs fun v r h => hl ⟨v, r, h⟩).reloading.trans hr

/-- During a reload, every input but a storage change and the current load's answer keeps it
running under the same version, and keeps what was kept aside. -/
theorem take_of_reloading (hr : e.reloading = true) {i : Input}
    (hi : ∀ stored clock, i ≠ .message .storageChanged stored clock)
    (hcur : ∀ r stored clock, i ≠ .message (.reloadLoaded e.reloadVersion r) stored clock) :
    (e.take i).reloading = true ∧ (e.take i).reloadVersion = e.reloadVersion ∧
      ∀ y ∈ e.forceSaved.map (·.id), y ∈ (e.take i).forceSaved.map (·.id) := by
  cases i with
  | call c clock =>
    have hq := quiet_take_call e c clock
    exact ⟨hq.reloading.trans hr, hq.reloadVersion, fun y hy => by rw [hq.forceSaved]; exact hy⟩
  | message m stored clock =>
    by_cases hl : ∃ v r, m = .reloadLoaded v r
    · obtain ⟨v, r, rfl⟩ := hl
      have hq := quiet_take_stale e (v := v) r stored clock fun hv => hcur r stored clock (hv.1 ▸ rfl)
      exact ⟨hq.reloading.trans hr, hq.reloadVersion, fun y hy => by rw [hq.forceSaved]; exact hy⟩
    · have hs : m ≠ .storageChanged := fun h => hi stored clock (h ▸ rfl)
      have hst := steady_take e m stored clock hs fun v r h => hl ⟨v, r, h⟩
      exact ⟨hst.reloading.trans hr, hst.reloadVersion,
        fun y hy => mem_forceSaved_react (e := { e with clock }) stored (fun v r h => hl ⟨v, r, h⟩) hy⟩

theorem storedBy_cases {m : Message} {s : Session} (h : e.storedBy m = some s) :
    m.added? = some s ∨ (m = .lifecycle .restored ∧ e.undoTarget? = some s) := by
  cases m with
  | lifecycle ev =>
    cases ev with
    | created t => exact .inl h
    | forked t => exact .inl h
    | restored => exact .inr ⟨rfl, h⟩
    | deleted id kill => exact absurd h (by simp [storedBy])
    | bulkDeleted ids kill => exact absurd h (by simp [storedBy])
  | _ => exact absurd h (by simp [storedBy])

/-- During a reload, a message that stores a session keeps it aside. -/
theorem mem_forceSaved_of_storedBy (hr : e.reloading = true) {m : Message} {s : Session}
    (h : e.storedBy m = some s) (stored : Except Error Unit) (clock : Nat) :
    s.id ∈ (e.take (.message m stored clock)).forceSaved.map (·.id) := by
  rcases storedBy_cases h with hm | ⟨-, hu⟩
  · obtain ⟨anim, he⟩ := react_of_added (e := { e with clock }) hm stored
    show s.id ∈ (({ e with clock } : Engine).react m stored).forceSaved.map (·.id)
    rw [he, addSession_forceSaved]
    simp [hr]
  · -- no undo is offered during a reload
    simp [undoTarget?, hr] at hu

/-- Outside a reload, a message that stores a session leaves the engine owing a save. -/
theorem owing_of_storedBy (hr : e.reloading = false) (hs : ∀ j ∈ e.jobs, j.SavedBefore e)
    {m : Message} {s : Session} (h : e.storedBy m = some s) (stored : Except Error Unit) :
    (e.react m stored).Owing := by
  rcases storedBy_cases h with hm | ⟨rfl, hu⟩
  · obtain ⟨anim, he⟩ := react_of_added (e := e) hm stored
    rw [he]
    exact owing_addSession hr hs s anim stored
  · rcases react_restored e stored with ⟨t, -, he⟩ | ⟨hn, -⟩
    · rw [he]
      exact owing_restoreSession hr hs t stored
    · rw [hu] at hn
      exact absurd hn (by simp)

end Engine

end AgentDeck
