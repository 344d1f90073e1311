import AgentDeck.Proofs.Engine.Bookkeeping

/-!
The standing invariants of a deck.

Whatever happens, every queued save was scheduled under a reload version and a save number no
higher than the engine's; every load queued or answered and not yet taken in is under a
version no higher than the engine's, at most one is under the current version and none is once
the reload is over; and outside a reload no session is kept aside. `sound_run` says that every
run from a fresh start keeps them.
-/

namespace AgentDeck

/-- The version a load job reads under. -/
def Job.loadVersion? : Job → Option Nat
  | .load version => some version
  | _ => none

/-- The version a load's answer was read under. -/
def Message.loadVersion? : Message → Option Nat
  | .reloadLoaded version _ => some version
  | _ => none

/-- A save scheduled no later than the engine `e` is now: under a reload version and a save
number no higher than `e`'s. -/
def Job.SavedBefore (e : Engine) : Job → Prop
  | .save version seq _ _ _ => version ≤ e.reloadVersion ∧ seq ≤ e.saveSeq
  | _ => True

/-- Loads of versions `vs` in order with the reload version `rv`: none is newer, at most one is
current, and none is once the reload is over. -/
structure LoadsOk (rv : Nat) (reloading : Bool) (vs : List Nat) : Prop where
  below : ∀ v ∈ vs, v ≤ rv
  once : vs.count rv ≤ 1
  idle : reloading = false → rv ∉ vs

namespace LoadsOk

variable {rv : Nat} {r : Bool} {vs ws : List Nat}

theorem sublist (h : LoadsOk rv r vs) (hs : ws.Sublist vs) : LoadsOk rv r ws :=
  ⟨fun v hv => h.below v (hs.subset hv), Nat.le_trans (hs.count_le rv) h.once,
    fun hr hm => h.idle hr (hs.subset hm)⟩

theorem perm (h : LoadsOk rv r vs) (hp : ws.Perm vs) : LoadsOk rv r ws :=
  ⟨fun v hv => h.below v (hp.subset hv), (hp.count_eq rv).symm ▸ h.once,
    fun hr hm => h.idle hr (hp.subset hm)⟩

/-- Starting a reload adds the one load under the new version. -/
theorem start (h : LoadsOk rv r vs) : LoadsOk (rv + 1) true ((rv + 1) :: vs) := by
  have hnew : rv + 1 ∉ vs := fun hm => Nat.not_succ_le_self rv (h.below _ hm)
  refine ⟨fun v hv => ?_, ?_, fun hr => absurd hr Bool.noConfusion⟩
  · rcases List.mem_cons.mp hv with rfl | hv
    · exact Nat.le_refl _
    · exact Nat.le_succ_of_le (h.below v hv)
  · have hzero := List.count_eq_zero_of_not_mem hnew
    rw [List.count_cons_self]
    omega

/-- Taking in the load under the current version ends the reload. -/
theorem finish (h : LoadsOk rv true (rv :: ws)) : LoadsOk rv false ws := by
  have hcount := h.once
  rw [List.count_cons_self] at hcount
  have hnone : ws.count rv = 0 := by omega
  exact ⟨fun v hv => h.below v (List.mem_cons_of_mem _ hv), by omega,
    fun _ => List.count_eq_zero.mp hnone⟩

end LoadsOk

theorem perm_filterMap_eraseIdx {α β : Type} (f : α → Option β) {l : List α} {i : Nat} {a : α}
    (h : l[i]? = some a) :
    (l.filterMap f).Perm ((f a).toList ++ (l.eraseIdx i).filterMap f) := by
  obtain ⟨hi, rfl⟩ := List.getElem?_eq_some_iff.mp h
  refine ((List.getElem_cons_eraseIdx_perm hi).symm.filterMap f).trans ?_
  cases hf : f l[i] <;> simp [hf]

namespace Engine

variable {e e' : Engine}

theorem Queues.loadVersions (h : Queues e e') :
    e'.jobs.filterMap Job.loadVersion? = e.jobs.filterMap Job.loadVersion? := by
  obtain ⟨new, hj, hb⟩ := h.jobs
  have hnone : new.filterMap Job.loadVersion? = [] := by
    refine List.filterMap_eq_nil_iff.mpr fun j hmem => ?_
    have hq := hb j hmem
    cases j <;> first | rfl | exact hq.elim
  rw [hj, List.filterMap_append, hnone, List.append_nil]

theorem Queues.savedBefore (h : Queues e e') (hs : ∀ j ∈ e.jobs, j.SavedBefore e) :
    ∀ j ∈ e'.jobs, j.SavedBefore e' := by
  obtain ⟨new, hj, hb⟩ := h.jobs
  intro j hmem
  rw [hj] at hmem
  rcases List.mem_append.mp hmem with hmem | hmem
  · have hold := hs j hmem
    cases j <;> simp only [Job.SavedBefore] at hold ⊢
    case save =>
      exact ⟨h.reloadVersion ▸ hold.1, Nat.le_trans hold.2 h.saveSeq⟩
  · have hq := hb j hmem
    cases j <;> simp only [Job.Queued] at hq <;> simp only [Job.SavedBefore]
    case save => exact ⟨Nat.le_of_eq hq.1, hq.2.1⟩

/-- An answer that is not of the running reload changes nothing but the clock. -/
theorem quiet_take_stale (e : Engine) {v : Nat} (r : Except Error Snapshot)
    (stored : Except Error Unit) (clock : Nat) (h : ¬(v = e.reloadVersion ∧ e.reloading = true)) :
    Quiet e (e.take (.message (.reloadLoaded v r) stored clock)) := by
  show Quiet e (({ e with clock } : Engine).finishReload v r)
  rw [finishReload_of_stale (e := { e with clock }) r h]
  exact quiet_clock e clock

end Engine

theorem map_modify_of_eq {α β : Type} (g : α → β) (l : List α) (i : Nat) (f : α → α)
    (h : ∀ hi : i < l.length, g (f l[i]) = g l[i]) : (l.modify i f).map g = l.map g := by
  apply List.ext_getElem (by simp)
  intro n _ h₂
  simp only [List.getElem_map, List.getElem_modify]
  split
  · next hn =>
    subst hn
    exact h (by simpa using h₂)
  · rfl

namespace Contents

variable {c : Contents} {x : String}

@[simp] theorem unless_none (c : Contents) (f : Contents → Contents) : c.unless none f = f c := rfl

/-- Storing a session replaces the one with its id, or adds it at the end. -/
theorem mem_ids_putSession (s : Session) :
    x ∈ (c.putSession s).sessions.map (·.id) ↔ x ∈ c.sessions.map (·.id) ∨ x = s.id := by
  unfold putSession
  dsimp only
  split
  · next hany =>
    obtain ⟨t, ht, hid⟩ := List.any_eq_true.mp hany
    -- the session replaced has the id of the one that replaces it
    have hkeep := map_modify_of_eq (·.id) c.sessions (c.sessions.findIdx (·.id == s.id))
      (fun _ => s) fun hi => (beq_iff_eq.mp (List.findIdx_getElem (w := hi))).symm
    rw [hkeep]
    refine ⟨Or.inl, fun h => h.elim id fun hx => ?_⟩
    rw [hx, ← beq_iff_eq.mp hid]
    exact List.mem_map_of_mem ht
  · simp

theorem mem_ids_dropSessions (ids : List String) :
    x ∈ (c.dropSessions ids).sessions.map (·.id) ↔ x ∈ c.sessions.map (·.id) ∧ x ∉ ids := by
  unfold dropSessions
  simp only [List.mem_map, List.mem_filter]
  constructor
  · rintro ⟨t, ⟨ht, hkeep⟩, rfl⟩
    exact ⟨⟨t, ht, rfl⟩, by simpa using hkeep⟩
  · rintro ⟨⟨t, ht, rfl⟩, hx⟩
    exact ⟨t, ⟨ht, by simpa using hx⟩, rfl⟩

end Contents

namespace Deck

variable {d d' : Deck}

/-- The versions of the loads queued or answered and not yet taken in. -/
def loads (d : Deck) : List Nat :=
  d.engine.jobs.filterMap Job.loadVersion? ++ d.inbox.filterMap Message.loadVersion?

/-- The standing invariants of a deck. -/
structure Sound (d : Deck) : Prop where
  /-- No queued save is ahead of the engine. -/
  saves : ∀ j ∈ d.engine.jobs, j.SavedBefore d.engine
  /-- The loads are in order with the reload. -/
  loads : LoadsOk d.engine.reloadVersion d.engine.reloading d.loads
  /-- Outside a reload nothing is kept aside. -/
  kept : d.engine.reloading = false → d.engine.forceSaved = []
  /-- Only the registry's jobs report back. -/
  reports : ∀ m ∈ d.inbox, m.fromRegistry = true

/-- A steady engine step, with no report added, keeps the invariants. -/
theorem Sound.steady (h : d.Sound) (hs : Engine.Steady d.engine d'.engine)
    (hi : d'.inbox.Sublist d.inbox) : d'.Sound := by
  have hl : d'.loads.Sublist d.loads := by
    unfold Deck.loads
    rw [hs.toQueues.loadVersions]
    exact (hi.filterMap _).append_left _
  refine ⟨hs.toQueues.savedBefore h.saves, ?_, fun hr => ?_,
    fun m hm => h.reports m (hi.subset hm)⟩
  · rw [hs.reloadVersion, hs.reloading]
    exact h.loads.sublist hl
  · rw [hs.forceSaved hr]
    exact h.kept (hs.reloading ▸ hr)

/-- A storage change starts a reload with one fresh load. -/
theorem Sound.startReload (h : d.Sound) (clock : Nat)
    (he : d'.engine = { d.engine with clock }.startReload) (hi : d'.inbox.Sublist d.inbox) :
    d'.Sound := by
  rw [Engine.startReload_eq] at he
  have hl : d'.loads.Perm ((d.engine.reloadVersion + 1) ::
      (d.engine.jobs.filterMap Job.loadVersion? ++ d'.inbox.filterMap Message.loadVersion?)) := by
    unfold Deck.loads
    rw [he]
    simp only [Engine.spawn, List.filterMap_append, Job.loadVersion?, List.filterMap_cons,
      List.filterMap_nil, List.append_assoc, List.singleton_append]
    exact List.perm_middle
  refine ⟨fun j hmem => ?_, ?_, fun hr => ?_, fun m hm => h.reports m (hi.subset hm)⟩
  · rw [he] at hmem ⊢
    rcases List.mem_append.mp hmem with hmem | hmem
    · have hold := h.saves j hmem
      cases j <;> simp only [Job.SavedBefore] at hold ⊢
      case save => exact ⟨Nat.le_succ_of_le hold.1, hold.2⟩
    · rw [List.mem_singleton.mp hmem]
      trivial
  · rw [he]
    refine LoadsOk.perm ?_ hl
    exact (h.loads.sublist ((hi.filterMap _).append_left _)).start
  · rw [he] at hr
    exact absurd hr Bool.noConfusion

/-- The latest load landing during its reload ends it. -/
theorem Sound.finishReload (h : d.Sound) (clock : Nat) {v : Nat} (r : Except Error Snapshot)
    (hv : v = d.engine.reloadVersion) (hr : d.engine.reloading = true)
    (he : d'.engine = { d.engine with clock }.finishReload v r)
    (hi : (d.inbox.filterMap Message.loadVersion?).Perm
      (v :: d'.inbox.filterMap Message.loadVersion?)) (hsub : d'.inbox.Sublist d.inbox) :
    d'.Sound := by
  obtain ⟨hq, hrel, hkept, -⟩ := Engine.finishReload_current (e := { d.engine with clock }) hv hr r
  rw [← he] at hq hrel hkept
  have hq' : Engine.Queues d.engine d'.engine := by
    refine Engine.Queues.of_prefix ?_ ?_ ?_ ?_ hq
    · rfl
    · rfl
    · rfl
    · exact Nat.le_refl _
  -- the load taken in was the one current load, so none is left
  have hl : d.loads.Perm (v :: d'.loads) := by
    unfold Deck.loads
    rw [hq'.loadVersions]
    exact (List.Perm.append_left _ hi).trans List.perm_middle
  have hok := h.loads.perm hl.symm
  rw [hv, hr] at hok
  refine ⟨hq'.savedBefore h.saves, ?_, fun _ => hkept, fun m hm => h.reports m (hsub.subset hm)⟩
  rw [hq'.reloadVersion, hrel]
  exact hok.finish

/-- Handling a message from outside keeps the invariants. -/
theorem Sound.take (h : d.Sound) (m : Message) (stored : Except Error Unit) (clock : Nat)
    (hm : m.fromRegistry = false) (he : d'.engine = d.engine.take (.message m stored clock))
    (hi : d'.inbox = d.inbox) : d'.Sound := by
  have hsub : d'.inbox.Sublist d.inbox := hi ▸ List.Sublist.refl _
  by_cases hs : m = .storageChanged
  · subst hs
    exact h.startReload clock he hsub
  · have hl : ∀ v r, m ≠ .reloadLoaded v r := by
      rintro v r rfl
      exact absurd hm Bool.noConfusion
    exact h.steady (he ▸ Engine.steady_take _ m stored clock hs hl) hsub

/-- Handling a waiting report keeps the invariants. -/
theorem Sound.report (h : d.Sound) {i : Nat} {m : Message} (hm : d.inbox[i]? = some m)
    (clock : Nat) (he : d'.engine = d.engine.take (.message m (.ok ()) clock))
    (hi : d'.inbox = d.inbox.eraseIdx i) : d'.Sound := by
  have hperm := perm_filterMap_eraseIdx Message.loadVersion? hm
  have hsub : d'.inbox.Sublist d.inbox := hi ▸ List.eraseIdx_sublist d.inbox i
  by_cases hs : m = .storageChanged
  · subst hs
    exact h.startReload clock he hsub
  · by_cases hl : ∃ v r, m = .reloadLoaded v r
    · obtain ⟨v, r, rfl⟩ := hl
      by_cases hcur : v = d.engine.reloadVersion ∧ d.engine.reloading = true
      · refine h.finishReload clock r hcur.1 hcur.2 he ?_ hsub
        rw [hi]
        exact hperm
      · -- a stale load is dropped
        exact h.steady (he ▸ (Engine.quiet_take_stale _ r _ clock hcur).steady) hsub
    · have hl' : ∀ v r, m ≠ .reloadLoaded v r := fun v r hvr => hl ⟨v, r, hvr⟩
      exact h.steady (he ▸ Engine.steady_take _ m _ clock hs hl') hsub

/-- A job taken off the queue whose report, if it sends one, goes to the inbox keeps the
invariants. -/
theorem Sound.drop (h : d.Sound) {i : Nat} {j : Job} (hj : d.engine.jobs[i]? = some j)
    (he : d'.engine = { d.engine with jobs := d.engine.jobs.eraseIdx i })
    (hi : (d'.inbox.filterMap Message.loadVersion?).Perm
      ((j.loadVersion?).toList ++ d.inbox.filterMap Message.loadVersion?))
    (hr : ∀ m ∈ d'.inbox, m ∈ d.inbox ∨ m.fromRegistry = true) : d'.Sound := by
  have hl : d'.loads.Perm d.loads := by
    unfold Deck.loads
    rw [he]
    refine (List.Perm.append_left _ hi).trans ?_
    rw [← List.append_assoc]
    exact List.Perm.append_right _
      (List.perm_append_comm.trans (perm_filterMap_eraseIdx Job.loadVersion? hj).symm)
  refine ⟨fun j' hmem => ?_, ?_, fun hidle => ?_, fun m hm => ?_⟩
  · rw [he] at hmem ⊢
    exact h.saves j' ((List.eraseIdx_sublist _ i).subset hmem)
  · rw [he]
    exact h.loads.perm hl
  · rw [he] at hidle ⊢
    exact h.kept hidle
  · rcases hr m hm with hm | hm
    · exact h.reports m hm
    · exact hm

/-- A job at work changes only the registry, the save lock and the reports. -/
theorem perform_engine (d : Deck) (j : Job) (fault : Option Error) :
    (d.perform j fault).engine = d.engine := by
  cases j <;> simp only [perform]
  case save => split <;> rfl

theorem perform_loads (d : Deck) (j : Job) (fault : Option Error) :
    ((d.perform j fault).inbox.filterMap Message.loadVersion?).Perm
      ((j.loadVersion?).toList ++ d.inbox.filterMap Message.loadVersion?) := by
  cases j <;> simp only [perform, Job.loadVersion?, Option.toList_none, List.nil_append]
  case save => split <;> exact List.Perm.refl _
  case load version =>
    simp only [List.filterMap_append, Message.loadVersion?, List.filterMap_cons,
      List.filterMap_nil, Option.toList_some]
    exact List.perm_append_comm
  case removeSessions ids =>
    rw [List.filterMap_append]
    exact List.Perm.of_eq (List.append_nil _)
  all_goals exact List.Perm.refl _

theorem perform_reports (d : Deck) (j : Job) (fault : Option Error) :
    ∀ m ∈ (d.perform j fault).inbox, m ∈ d.inbox ∨ m.fromRegistry = true := by
  intro m hm
  cases j <;> simp only [perform] at hm
  case save => split at hm <;> exact Or.inl hm
  case load version =>
    rcases List.mem_append.mp hm with hm | hm
    · exact Or.inl hm
    · rw [List.mem_singleton.mp hm]
      exact Or.inr rfl
  case removeSessions ids =>
    rcases List.mem_append.mp hm with hm | hm
    · exact Or.inl hm
    · rw [List.mem_singleton.mp hm]
      exact Or.inr rfl
  all_goals exact Or.inl hm

theorem Sound.work (h : d.Sound) (i : Nat) (fault : Option Error) :
    (d.step (.work i fault)).Sound := by
  dsimp only [step]
  split
  · next j hj =>
    split
    · exact h
    · exact h.drop hj (perform_engine _ j fault) (perform_loads _ j fault)
        (perform_reports _ j fault)
  · exact h

theorem Sound.commit (h : d.Sound) (fault : Option Error) : (d.step (.commit fault)).Sound := by
  dsimp only [step]
  split
  · -- a failed save reports that it failed, and no load
    refine ⟨h.saves, ?_, h.kept, fun m hm => ?_⟩ <;> cases fault
    · simpa [Deck.loads] using h.loads
    · simpa [Deck.loads, List.filterMap_cons, Message.loadVersion?] using h.loads
    · simp only [List.append_nil] at hm
      exact h.reports m hm
    · rcases List.mem_append.mp hm with hm | hm
      · exact h.reports m hm
      · rw [List.mem_singleton.mp hm]
        rfl
  · exact h

/-- Every event keeps the invariants. -/
theorem sound_step (h : d.Sound) (ev : Event) : (d.step ev).Sound := by
  cases ev with
  | message m fault clock =>
    dsimp only [step]
    split
    · exact h
    · next hm =>
      split
      · exact h.take m _ clock (eq_false_of_ne_true hm) rfl rfl
      · split
        · exact h
        · exact h.take m _ clock (eq_false_of_ne_true hm) rfl rfl
  | call c clock =>
    exact h.steady (Engine.quiet_take_call d.engine c clock).steady (List.Sublist.refl _)
  | report i clock =>
    dsimp only [step]
    split
    · next m hm => exact h.report hm clock rfl rfl
    · exact h
  | work i fault => exact h.work i fault
  | commit fault => exact h.commit fault

/-- A fresh engine started from any registry contents is sound. -/
theorem sound_start (config : Config) (registry : Registry) (mux : Mux) (git : GitLookup)
    (now : Nat) (c : Contents) (v : ViewState) :
    (start (Engine.new config registry mux git now) c v).Sound := by
  obtain ⟨e₁, hq, hj, hr, -, -, hf, -, -⟩ :=
    Engine.boot_spec (Engine.new config registry mux git now) (c.snapshot none) v
  -- a fresh engine has no jobs, so only the fetches of the start are queued
  have hnil : e₁.jobs = [] := hj
  have hq' := hq.queues
  refine ⟨hq'.savedBefore fun j hmem => absurd (hnil ▸ hmem) List.not_mem_nil, ?_, fun _ => ?_,
    fun m hm => absurd hm List.not_mem_nil⟩
  · have hloads : (start (Engine.new config registry mux git now) c v).loads = [] := by
      unfold Deck.loads start
      rw [hq'.loadVersions, hnil]
      rfl
    rw [hloads]
    exact ⟨fun _ hm => absurd hm List.not_mem_nil, Nat.zero_le _,
      fun _ hm => absurd hm List.not_mem_nil⟩
  · exact hq.forceSaved.trans hf

/-- Every run keeps the invariants. -/
theorem sound_run (h : d.Sound) (evs : List Event) : (d.run evs).Sound := by
  induction evs generalizing d with
  | nil => exact h
  | cons ev evs ih => exact ih (sound_step h ev)

/-- A deck that some run reaches from a fresh engine started on any registry contents. -/
def Reachable (d : Deck) : Prop :=
  ∃ (config : Config) (registry : Registry) (mux : Mux) (git : GitLookup) (now : Nat)
    (c : Contents) (v : ViewState) (evs : List Event),
    d = (start (Engine.new config registry mux git now) c v).run evs

theorem Reachable.sound (h : d.Reachable) : d.Sound := by
  obtain ⟨config, registry, mux, git, now, c, v, evs, rfl⟩ := h
  exact sound_run (sound_start config registry mux git now c v) evs

end Deck

end AgentDeck
