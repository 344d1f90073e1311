import AgentDeck.Proofs.Engine.Reloaded
import AgentDeck.Proofs.Deck.Quiescence

/-!
When the registry and the engine meet again.

Whenever a run comes to rest, the registry should hold what the engine holds (`Deck.Agrees`).
`stale_read_outlives_save` shows a run with no failed access that ends apart; so do a removal
that lands after the session came back, and a removal that lands after a reload took in what it
was about to remove. A run is orderly (`Event.orderly`) when none of that can happen: a reload
starts only with no removal queued, a session stored during a reload has an id the registry
lacks, a load reads only while no save holds the save lock, and a removal lands only once the
engine holds none of the sessions it removes. Every orderly run from a fresh start with no
failed access ends, once nothing is left to happen, with the two agreeing
(`Deck.quiescent_registry_agrees`).

The invariant has two phases (`Deck.Converging`). Outside a reload (`Deck.Idle`) the registry
mirrors the engine unless a save is owed or the lock is held, and the save that holds the lock
writes what the engine holds unless a save is owed: most steps keep what the engine stores or
end owing a save of it (`Engine.settles_take`). During a reload (`Deck.Reloading`) the registry
is not compared with the engine at all, since the reload installs what it reads: what matters is
that the answer of the current load read the registry while the lock was free, and that since
then the registry only took sessions the engine keeps aside. The reload then ends owing a save,
or holding what it read, which the registry still holds (`Engine.finishReload_settles`).
-/

namespace AgentDeck

theorem Job.currentIn_save_iff {e : Engine} {v q : Nat} {ss : List Session} {tree : GroupTree}
    {tasks : List Task} :
    Job.CurrentIn e (.save v q ss tree tasks) ↔ e.saveIsCurrent v q = true := by
  simp only [Job.CurrentIn, Engine.saveIsCurrent, Bool.and_eq_true, beq_iff_eq]
  exact and_congr eq_comm eq_comm

theorem Input.message_ne {m m' : Message} (h : m ≠ m') (stored stored' : Except Error Unit)
    (clock clock' : Nat) : Input.message m stored clock ≠ .message m' stored' clock' :=
  fun heq => h (Input.message.inj heq).1

/-- The registry holds what the engine holds: the same table of sessions and the same tasks. -/
def Contents.Mirrors (c : Contents) (e : Engine) : Prop :=
  sessionTable c.sessions = sessionTable e.sessions ∧ c.tasks = e.tasks

namespace Contents

variable {c : Contents} {e e' : Engine}

@[simp] theorem dropSessions_nil (c : Contents) : c.dropSessions [] = c := by
  have hnone : ∀ t : Task, t.sessionId.any [].contains = false := fun t => by
    cases t.sessionId <;> rfl
  simp [dropSessions, hnone]

theorem Mirrors.still (h : c.Mirrors e) (hst : Engine.Still e e') : c.Mirrors e' :=
  ⟨h.1.trans hst.table.symm, h.2.trans hst.tasks.symm⟩

/-- Removing sessions the engine no longer holds, whose tasks it has marked orphaned already,
keeps the registry mirroring it. -/
theorem Mirrors.dropSessions (h : c.Mirrors e) {ids : List String}
    (hout : ∀ x ∈ ids, x ∉ e.sessions.map (·.id)) (horph : ∀ x ∈ ids, tasksOrphaned e.tasks x) :
    (c.dropSessions ids).Mirrors e := by
  refine ⟨funext fun x => ?_, ?_⟩
  · show sessionTable (c.sessions.filter fun s => !ids.contains s.id) x = _
    rw [sessionTable_filter_ids, ← h.1]
    split
    · next hx =>
      -- a removed id is in neither table
      have hreg : x ∉ c.sessions.map (·.id) := fun hin => hout x hx ((mem_ids_of_table h.1).mp hin)
      rw [← sessionTable_isSome, Option.not_isSome_iff_eq_none] at hreg
      exact hreg.symm
    · rfl
  · -- every task linked to a removed session is marked already
    show (c.tasks.map fun t =>
      if t.sessionId.any ids.contains then { t with orphaned := true } else t) = e.tasks
    rw [h.2]
    conv_rhs => rw [← List.map_id e.tasks]
    refine List.map_congr_left fun t ht => ?_
    split
    · next hany =>
      obtain ⟨x, hx, hin⟩ := (Option.any_eq_true _ _).mp hany
      have hmark := horph x (List.contains_iff_mem.mp hin) t ht hx
      cases t
      simp_all
    · rfl

theorem Mirrors.agrees {d : Deck} (h : d.registry.Mirrors d.engine) : d.Agrees :=
  ⟨fun id => congrFun h.1 id, h.2⟩

end Contents

/-! ### Orderly events -/

section Orderly

variable {d : Deck}

/-- Whether the event keeps the order convergence needs: a storage change comes with no removal
queued; during a reload, a session stored has an id the registry lacks; a load reads only while
no save holds the lock; and a removal lands only on sessions the engine no longer holds. -/
def Event.orderly (d : Deck) : Event → Bool
  | .message m _ _ =>
    (!(m matches .storageChanged) || d.engine.jobs.all fun j => j.removals.isEmpty) &&
      (d.engine.storedBy m).all fun s =>
        !d.engine.reloading || !(d.registry.sessions.map (·.id)).contains s.id
  | .work i _ =>
    (d.engine.jobs[i]?).all fun j =>
      (!(j matches .load _) || d.writing.isNone) &&
        j.removals.all fun x => !(d.engine.sessions.map (·.id)).contains x
  | _ => true

theorem Event.orderly_storageChanged {fault : Option Error} {clock : Nat}
    (h : (Event.message .storageChanged fault clock).orderly d = true) :
    ∀ j ∈ d.engine.jobs, j.removals = [] := by
  simpa [Event.orderly, Engine.storedBy, List.isEmpty_iff] using h

theorem Event.orderly_stored {m : Message} {fault : Option Error} {clock : Nat} {s : Session}
    (h : (Event.message m fault clock).orderly d = true) (hst : d.engine.storedBy m = some s)
    (hr : d.engine.reloading = true) : s.id ∉ d.registry.sessions.map (·.id) := by
  simp [Event.orderly, hst, hr] at h
  simpa using h.2

theorem Event.orderly_work {i : Nat} {fault : Option Error} {j : Job}
    (h : (Event.work i fault).orderly d = true) (hj : d.engine.jobs[i]? = some j) :
    (∀ v, j = .load v → d.writing = none) ∧ ∀ x ∈ j.removals, x ∉ d.engine.sessions.map (·.id) := by
  simp only [Event.orderly, hj, Option.all_some, Bool.and_eq_true, Bool.or_eq_true,
    Bool.not_eq_true', List.all_eq_true] at h
  refine ⟨fun v hv => ?_, fun x hx => by simpa using h.2 x hx⟩
  subst hv
  simpa using h.1

end Orderly

namespace Deck

/-- The save that holds the lock writes what the engine holds. -/
def Writes (w : List Session × GroupTree × List Task) (e : Engine) : Prop :=
  sessionTable w.1 = sessionTable e.sessions ∧ w.2.2 = e.tasks

theorem Writes.still {w : List Session × GroupTree × List Task} {e e' : Engine} (h : Writes w e)
    (hst : Engine.Still e e') : Writes w e' :=
  ⟨h.1.trans hst.table.symm, h.2.trans hst.tasks.symm⟩

/-- Outside a reload: every current save writes what the engine holds and every queued removal
finds its tasks marked; the save that holds the lock writes what the engine holds, and the
registry mirrors the engine, unless a save is owed or, for the registry, the lock is held. -/
structure Idle (d : Deck) : Prop where
  reloading : d.engine.reloading = false
  carried : d.engine.Carried
  orphans : d.engine.OrphansMarked
  held : ∀ w, d.writing = some w → Writes w d.engine ∨ d.engine.Owes
  registry : d.registry.Mirrors d.engine ∨ d.engine.Owes ∨ d.writing.isSome

/-- During a reload: no removal is queued, and the answer of the current load, if it came, read
the registry while no save held the lock and holds what the registry holds now, unless it
misses a session kept aside since. -/
structure Reloading (d : Deck) : Prop where
  reloading : d.engine.reloading = true
  removals : ∀ j ∈ d.engine.jobs, j.removals = []
  answer : ∀ r, Message.reloadLoaded d.engine.reloadVersion r ∈ d.inbox →
    d.writing = none ∧ ∃ snap, r = .ok snap ∧
      (snap.sessions = d.registry.sessions ∧ snap.tasks = d.registry.tasks ∨
        ∃ y ∈ d.engine.forceSaved.map (·.id), y ∉ snap.sessions.map (·.id))

/-- The invariant of an orderly run: one of the two phases. -/
def Converging (d : Deck) : Prop := d.Idle ∨ d.Reloading

variable {d d' : Deck}

/-! ### Outside a reload -/

namespace Idle

theorem settle (hs : ∀ j ∈ d.engine.jobs, j.SavedBefore d.engine) (h : d.Idle)
    (hst : Engine.Settles d.engine d'.engine) (hr : d'.engine.reloading = false)
    (ho : d'.engine.OrphansMarked) (hreg : d'.registry = d.registry)
    (hw : d'.writing = d.writing) : d'.Idle := by
  rcases hst with hst | howing
  · refine ⟨hr, hst.carried hs h.carried, ho, fun w hw' => ?_, ?_⟩
    · rcases h.held w (hw ▸ hw') with hwr | howes
      · exact .inl (hwr.still hst)
      · exact .inr (hst.owes' howes)
    · rw [hreg, hw]
      rcases h.registry with hm | howes | hlock
      · exact .inl (hm.still hst)
      · exact .inr (.inl (hst.owes' howes))
      · exact .inr (.inr hlock)
  · exact ⟨hr, howing.2, ho, fun _ _ => .inr howing.1, .inr (.inl howing.1)⟩

theorem take (hs : d.Sound) (h : d.Idle) {i : Input}
    (hi : ∀ stored clock, i ≠ .message .storageChanged stored clock)
    (he : d'.engine = d.engine.take i) (hreg : d'.registry = d.registry)
    (hw : d'.writing = d.writing) : d'.Idle := by
  refine h.settle hs.saves ?_ ?_ ?_ hreg hw <;> rw [he]
  · exact Engine.settles_take h.reloading hs.saves hi
  · exact Engine.reloading_take_of_idle h.reloading hi
  · exact Engine.orphansMarked_take h.reloading h.orphans hi

theorem store (hs : d.Sound) (h : d.Idle) {m : Message} {s : Session}
    (hst : d.engine.storedBy m = some s) (hfree : d.writing = none) (stored : Except Error Unit)
    (clock : Nat) (he : d'.engine = d.engine.take (.message m stored clock))
    (hw : d'.writing = d.writing) : d'.Idle := by
  have hm : m ≠ .storageChanged := by
    rintro rfl
    cases hst
  have hi := fun stored' clock' => Input.message_ne hm stored stored' clock clock'
  have howing : d'.engine.Owing := by
    rw [he]
    exact Engine.owing_of_storedBy (e := { d.engine with clock }) h.reloading hs.saves hst stored
  refine ⟨?_, howing.2, ?_, fun w hw' => ?_, .inr (.inl howing.1)⟩
  · rw [he]
    exact Engine.reloading_take_of_idle h.reloading hi
  · rw [he]
    exact Engine.orphansMarked_take h.reloading h.orphans hi
  · rw [hw, hfree] at hw'
    cases hw'

theorem dropJob (h : d.Idle) {i : Nat} {j : Job} (hj : d.engine.jobs[i]? = some j)
    (hcur : ¬ j.CurrentIn d.engine) : (d.dropJob i).Idle :=
  ⟨h.reloading, h.carried.eraseIdx i, h.orphans.kept (Engine.kept_eraseIdx _ i),
    fun w hw => (h.held w hw).imp id (·.eraseIdx hj hcur),
    h.registry.imp id (Or.imp_left (·.eraseIdx hj hcur))⟩

theorem work (h : d.Idle) {i : Nat} {j : Job} (hj : d.engine.jobs[i]? = some j)
    (hfree : j.takesSaveLock = true → d.writing = none)
    (hrem : ∀ x ∈ j.removals, x ∉ d.engine.sessions.map (·.id)) :
    ((d.dropJob i).perform j none).Idle := by
  have hmem := List.mem_of_getElem? hj
  cases j with
  | save v q ss tree tasks =>
    simp only [perform]
    split
    · next hcur =>
      -- a current save takes the lock and writes what the engine holds
      have hst := h.carried _ hmem ((Job.currentIn_save_iff (e := d.engine)).mpr hcur)
      refine ⟨h.reloading, h.carried.eraseIdx i, h.orphans.kept (Engine.kept_eraseIdx _ i),
        fun w hw => ?_, .inr (.inr rfl)⟩
      cases hw
      exact .inl hst
    · next hcur => exact h.dropJob hj fun hc => hcur ((Job.currentIn_save_iff (e := d.engine)).mp hc)
  | load v =>
    -- the answer goes to the inbox, which the invariant does not read
    have hd := h.dropJob hj fun hc => hc
    exact ⟨hd.reloading, hd.carried, hd.orphans, hd.held, hd.registry⟩
  | removeSessions ids =>
    have hw : d.writing = none := hfree rfl
    have hnc : ¬ Job.CurrentIn d.engine (.removeSessions ids) := fun hc => hc
    refine ⟨h.reloading, h.carried.eraseIdx i, h.orphans.kept (Engine.kept_eraseIdx _ i),
      fun w hw' => ?_, ?_⟩
    · have hheld : d.writing = some w := hw'
      rw [hw] at hheld
      cases hheld
    · show (d.registry.dropSessions ids).Mirrors _ ∨ _ ∨ d.writing.isSome
      rcases h.registry with hm | howes | hlock
      · -- the removal lands on sessions gone from memory, whose tasks are marked there
        exact .inl (hm.dropSessions hrem fun x hx => h.orphans _ hmem x hx (hrem x hx))
      · exact .inr (.inl (howes.eraseIdx hj hnc))
      · exact .inr (.inr hlock)
  | _ => exact h.dropJob hj fun hc => hc

theorem commit (h : d.Idle) {w : List Session × GroupTree × List Task}
    (hw : d.writing = some w) : (d.step (.commit none)).Idle := by
  obtain ⟨ss, tree, tasks⟩ := w
  simp only [step, hw]
  refine ⟨h.reloading, h.carried, h.orphans, (fun _ hw' => by cases hw'), ?_⟩
  rcases h.held _ hw with hwr | howes
  · exact .inl hwr
  · exact .inr (.inl howes)

theorem agrees (h : d.Idle) (hq : d.Quiescent) : d.Agrees := by
  obtain ⟨-, hjobs, hw, -⟩ := hq
  rcases h.registry with hm | ⟨j, hj, -⟩ | hlock
  · exact hm.agrees
  · -- no job is queued, so no save is owed
    rw [hjobs] at hj
    cases hj
  · rw [hw] at hlock
    cases hlock

end Idle

/-! ### During a reload -/

theorem reloading_startReload (hs : d.Sound) (hrem : ∀ j ∈ d.engine.jobs, j.removals = [])
    (clock : Nat) :
    ({ d with engine := d.engine.take (.message .storageChanged (.ok ()) clock) }).Reloading := by
  have he : d.engine.take (.message .storageChanged (.ok ()) clock) =
      ({ d.engine with clock } : Engine).startReload := rfl
  refine ⟨by rw [he, Engine.startReload_eq]; rfl, fun j hj => ?_, fun r hr => ?_⟩
  · rw [he, Engine.startReload_eq] at hj
    rcases List.mem_append.mp hj with hj | hj
    · exact hrem j hj
    · rw [List.mem_singleton.mp hj]
      rfl
  · -- every load so far is under an older version
    have hnew : d.engine.reloadVersion + 1 ∈ d.loads := by
      rw [he, Engine.startReload_eq] at hr
      exact mem_loads_of_inbox hr rfl
    have hle := hs.loads.below _ hnew
    omega

namespace Reloading

theorem of_engine (h : d.Reloading) (hr : d'.engine.reloading = true)
    (hv : d'.engine.reloadVersion = d.engine.reloadVersion)
    (hkept : ∀ y ∈ d.engine.forceSaved.map (·.id), y ∈ d'.engine.forceSaved.map (·.id))
    (hrem : ∀ j ∈ d'.engine.jobs, j.removals = [] ∨ j ∈ d.engine.jobs)
    (hw : d'.writing = d.writing)
    (hin : ∀ r, Message.reloadLoaded d.engine.reloadVersion r ∈ d'.inbox →
      Message.reloadLoaded d.engine.reloadVersion r ∈ d.inbox)
    (hreg : d'.registry = d.registry ∨
      ∃ y ∈ d'.engine.forceSaved.map (·.id), y ∉ d.registry.sessions.map (·.id)) :
    d'.Reloading := by
  refine ⟨hr, fun j hj => (hrem j hj).elim id (h.removals j), fun r hr' => ?_⟩
  rw [hv] at hr'
  obtain ⟨hw', snap, rfl, hsnap⟩ := h.answer r (hin r hr')
  refine ⟨hw.trans hw', snap, rfl, ?_⟩
  rcases hsnap with ⟨hss, hts⟩ | hmiss
  · rcases hreg with hreg | ⟨y, hy, hout⟩
    · rw [hreg]
      exact .inl ⟨hss, hts⟩
    · -- the answer was read before the registry took a session kept aside
      exact .inr ⟨y, hy, hss ▸ hout⟩
  · exact .inr (hmiss.imp fun y hy => ⟨hkept y hy.1, hy.2⟩)

theorem take (h : d.Reloading) {i : Input}
    (hi : ∀ stored clock, i ≠ .message .storageChanged stored clock)
    (hcur : ∀ r stored clock, i ≠ .message (.reloadLoaded d.engine.reloadVersion r) stored clock)
    (he : d'.engine = d.engine.take i) (hreg : d'.registry = d.registry)
    (hw : d'.writing = d.writing) (hin : ∀ m ∈ d'.inbox, m ∈ d.inbox) : d'.Reloading := by
  obtain ⟨hr', hv, hkept⟩ := Engine.take_of_reloading h.reloading hi hcur
  rw [← he] at hr' hv hkept
  refine h.of_engine hr' hv hkept ?_ hw (fun _ hr => hin _ hr) (.inl hreg)
  rw [he]
  exact Engine.removals_take_of_reloading h.reloading hcur

theorem store (h : d.Reloading) {m : Message} {s : Session} (hm : m.fromRegistry = false)
    (hst : d.engine.storedBy m = some s) (hfresh : s.id ∉ d.registry.sessions.map (·.id))
    (stored : Except Error Unit) (clock : Nat)
    (he : d'.engine = d.engine.take (.message m stored clock)) (hw : d'.writing = d.writing)
    (hin : d'.inbox = d.inbox) : d'.Reloading := by
  have hsc : m ≠ .storageChanged := by
    rintro rfl
    cases hst
  have hcur := fun r stored' clock' =>
    Input.message_ne (Message.ne_reloadLoaded_of_outside hm d.engine.reloadVersion r) stored stored'
      clock clock'
  obtain ⟨hr', hv, hkept⟩ :=
    Engine.take_of_reloading h.reloading (fun _ _ => Input.message_ne hsc _ _ _ _) hcur
  have hnew := Engine.mem_forceSaved_of_storedBy h.reloading hst stored clock
  rw [← he] at hr' hv hkept hnew
  refine h.of_engine hr' hv hkept ?_ hw (fun _ hr => hin ▸ hr) (.inr ⟨s.id, hnew, hfresh⟩)
  rw [he]
  exact Engine.removals_take_of_reloading h.reloading hcur

theorem dropJob (h : d.Reloading) (i : Nat) : (d.dropJob i).Reloading :=
  ⟨h.reloading, fun j hj => h.removals j (List.mem_of_mem_eraseIdx hj), h.answer⟩

theorem work (ho : d.engine.SavesOlder) (h : d.Reloading) {i : Nat} {j : Job}
    (hj : d.engine.jobs[i]? = some j) (hload : ∀ v, j = .load v → d.writing = none) :
    ((d.dropJob i).perform j none).Reloading := by
  have hmem := List.mem_of_getElem? hj
  cases j with
  | save v q ss tree tasks =>
    -- every queued save is older than the reload, so none is current
    have hold : v < d.engine.reloadVersion := ho h.reloading _ hmem
    have hnc : (d.dropJob i).engine.saveIsCurrent v q = false := by
      simp only [Engine.saveIsCurrent, Bool.and_eq_false_iff, beq_eq_false_iff_ne]
      exact .inl (Nat.ne_of_gt hold)
    simp only [perform, hnc, Bool.false_eq_true, if_false]
    exact h.dropJob i
  | load v =>
    refine ⟨h.reloading, (h.dropJob i).removals, fun r hr => ?_⟩
    rcases List.mem_append.mp hr with hr | hr
    · exact h.answer r hr
    · -- the answer of this load: what the registry holds, read while the lock is free
      obtain ⟨-, rfl⟩ := Message.reloadLoaded.inj (List.mem_singleton.mp hr)
      exact ⟨hload v rfl, _, rfl, .inl ⟨rfl, rfl⟩⟩
  | removeSessions ids =>
    -- no removal is queued during a reload but an empty one, which changes nothing
    have hnil : ids = [] := h.removals _ hmem
    subst hnil
    refine (h.dropJob i).of_engine h.reloading rfl (fun _ hy => hy) (fun j hj => .inr hj) rfl
      (fun r hr => ?_) (.inl (Contents.dropSessions_nil _))
    -- its report answers no load
    rcases List.mem_append.mp hr with hr | hr
    · exact hr
    · cases List.mem_singleton.mp hr
  | _ => exact h.dropJob i

theorem commit (h : d.Reloading) {w : List Session × GroupTree × List Task}
    (hw : d.writing = some w) : (d.step (.commit none)).Reloading := by
  obtain ⟨ss, tree, tasks⟩ := w
  simp only [step, hw, List.append_nil]
  refine ⟨h.reloading, h.removals, fun r hr => ?_⟩
  have hfree := (h.answer r hr).1
  rw [hw] at hfree
  cases hfree

/-- **The reload ends settled.** Taking in the current load's answer ends the reload owing a
save, or with the engine holding what the answer read, which the registry still holds. -/
theorem finish (hs : d.Sound) (ho : d.engine.SavesOlder) (h : d.Reloading) {r : Except Error Snapshot}
    (hr : Message.reloadLoaded d.engine.reloadVersion r ∈ d.inbox) (clock : Nat)
    (he : d'.engine = d.engine.take (.message (.reloadLoaded d.engine.reloadVersion r) (.ok ()) clock))
    (hreg : d'.registry = d.registry) (hw : d'.writing = d.writing) : d'.Idle := by
  obtain ⟨hfree, snap, rfl, hsnap⟩ := h.answer r hr
  obtain ⟨hr', hc, hrem, hend⟩ :=
    Engine.finishReload_settles (e := { d.engine with clock }) rfl h.reloading ho hs.saves snap
  have he' : d'.engine = ({ d.engine with clock } : Engine).finishReload d.engine.reloadVersion
      (.ok snap) := he
  rw [← he'] at hr' hc hrem hend
  refine ⟨hr', hc, Engine.orphansMarked_of_removals fun j hj => (hrem j hj).elim id (h.removals j),
    fun _ hw' => ?_, ?_⟩
  · rw [hw, hfree] at hw'
    cases hw'
  · rw [hreg]
    rcases hend with howes | ⟨htab, htasks, hkept⟩
    · exact .inr (.inl howes)
    · -- nothing changed: the engine holds what was read, and the registry still holds it
      rcases hsnap with ⟨hss, hts⟩ | ⟨y, hy, hout⟩
      · exact .inl ⟨(htab.trans (congrArg sessionTable hss)).symm, (htasks.trans hts).symm⟩
      · exact absurd (hkept y hy) hout

end Reloading

/-! ### Orderly runs -/

theorem converging_message (hs : d.Sound) (h : d.Converging) {m : Message} {clock : Nat}
    (hord : (Event.message m none clock).orderly d = true) :
    (d.step (.message m none clock)).Converging := by
  dsimp only [step]
  split
  · exact h
  · next hm =>
    have hout : m.fromRegistry = false := eq_false_of_ne_true hm
    split
    · next hnone =>
      by_cases hsc : m = .storageChanged
      · -- a storage change starts a reload, from either phase
        subst hsc
        exact .inr (reloading_startReload hs (Event.orderly_storageChanged hord) clock)
      · have hi := fun stored' clock' => Input.message_ne hsc (.ok ()) stored' clock clock'
        rcases h with h | h
        · exact .inl (h.take hs hi rfl rfl rfl)
        · exact .inr (h.take hi (fun r _ _ =>
            Input.message_ne (Message.ne_reloadLoaded_of_outside hout _ r) _ _ _ _) rfl rfl rfl
            fun _ hm => hm)
    · next s hst =>
      split
      · exact h
      · next hlock =>
        have hfree : d.writing = none := by simpa using hlock
        rcases h with h | h
        · exact .inl (h.store hs hst hfree _ clock rfl rfl)
        · exact .inr (h.store hout hst (Event.orderly_stored hord hst h.reloading) _ clock rfl rfl
            rfl)

theorem converging_report (hs : d.Sound) (ho : d.engine.SavesOlder) (h : d.Converging)
    (i clock : Nat) : (d.step (.report i clock)).Converging := by
  dsimp only [step]
  split
  · next m hm =>
    -- only the registry's jobs report, so no report is a storage change
    have hsc : m ≠ .storageChanged := by
      rintro rfl
      cases hs.reports _ (List.mem_of_getElem? hm)
    have hi := fun stored' clock' => Input.message_ne hsc (.ok ()) stored' clock clock'
    rcases h with h | h
    · exact .inl (h.take hs hi rfl rfl rfl)
    · by_cases hcur : ∃ r, m = .reloadLoaded d.engine.reloadVersion r
      · obtain ⟨r, rfl⟩ := hcur
        exact .inl (h.finish hs ho (List.mem_of_getElem? hm) clock rfl rfl rfl)
      · exact .inr (h.take hi (fun r _ _ => Input.message_ne (fun he => hcur ⟨r, he⟩) _ _ _ _)
          rfl rfl rfl fun _ hm' => (List.eraseIdx_sublist _ i).subset hm')
  · exact h

theorem converging_work (ho : d.engine.SavesOlder) (h : d.Converging) {i : Nat}
    (hord : (Event.work i none).orderly d = true) : (d.step (.work i none)).Converging := by
  dsimp only [step]
  split
  · next j hj =>
    obtain ⟨hload, hrem⟩ := Event.orderly_work hord hj
    split
    · exact h
    · next hlock =>
      -- a job that takes the lock finds it free
      have hfree : j.takesSaveLock = true → d.writing = none := fun hl => by
        simpa [hl] using hlock
      rcases h with h | h
      · exact .inl (h.work hj hfree hrem)
      · exact .inr (h.work ho hj hload)
  · exact h

theorem converging_commit (h : d.Converging) : (d.step (.commit none)).Converging := by
  cases hw : d.writing with
  | none =>
    have hd : d.step (.commit none) = d := by simp [step, hw]
    rw [hd]
    exact h
  | some w => exact h.imp (·.commit hw) (·.commit hw)

theorem converging_step (hs : d.Sound) (ho : d.engine.SavesOlder) (h : d.Converging) {ev : Event}
    (hf : ev.faultless = true) (hord : ev.orderly d = true) : (d.step ev).Converging := by
  cases ev with
  | message m fault clock =>
    simp only [Event.faultless, Option.isNone_iff_eq_none] at hf
    subst hf
    exact converging_message hs h hord
  | call c clock =>
    rcases h with h | h
    · exact .inl (h.take hs (i := .call c clock) (fun _ _ heq => by cases heq) rfl rfl rfl)
    · exact .inr (h.take (i := .call c clock) (fun _ _ heq => by cases heq)
        (fun _ _ _ heq => by cases heq) rfl rfl rfl fun _ hm => hm)
  | report i clock => exact converging_report hs ho h i clock
  | work i fault =>
    simp only [Event.faultless, Option.isNone_iff_eq_none] at hf
    subst hf
    exact converging_work ho h hord
  | commit fault =>
    simp only [Event.faultless, Option.isNone_iff_eq_none] at hf
    subst hf
    exact converging_commit h

/-- Every event of the run is orderly in the deck it happens to. -/
def orderlyAlong : Deck → List Event → Bool
  | _, [] => true
  | d, ev :: evs => ev.orderly d && (d.step ev).orderlyAlong evs

/-- Every orderly run with no failed access keeps the invariant. -/
theorem converging_run (hs : d.Sound) (ho : d.engine.SavesOlder) (h : d.Converging)
    {evs : List Event} (hf : evs.all (·.faultless) = true) (hord : d.orderlyAlong evs = true) :
    (d.run evs).Converging := by
  induction evs generalizing d with
  | nil => exact h
  | cons ev evs ih =>
    simp only [List.all_cons, Bool.and_eq_true] at hf
    simp only [orderlyAlong, Bool.and_eq_true] at hord
    exact ih (sound_step hs ev) (savesOlder_step hs ho ev) (converging_step hs ho h hf.1 hord.1)
      hf.2 hord.2

theorem idle_start (config : Config) (registry : Registry) (mux : Mux) (git : GitLookup)
    (now : Nat) (c : Contents) (v : ViewState) :
    (start (Engine.new config registry mux git now) c v).Idle := by
  obtain ⟨e₁, hst, hjobs, hr, htab, htasks⟩ :=
    Engine.boot_holds (Engine.new config registry mux git now) (c.snapshot none) v rfl rfl rfl
  -- a fresh engine has no jobs, so nothing is owed and no removal is queued
  have hnone : ∀ j ∈ e₁.jobs, False := fun j hj => by
    rw [hjobs] at hj
    cases hj
  exact ⟨hst.reloading.trans hr, hst.carried (fun j hj' => (hnone j hj').elim)
      fun j hj' => (hnone j hj').elim,
    Engine.OrphansMarked.kept (fun j hj' => (hnone j hj').elim) hst.kept, (fun _ hw => by cases hw),
    .inl ⟨(hst.table.trans htab).symm, (hst.tasks.trans htasks).symm⟩⟩

/-- **Quiescent convergence.** From a fresh start on any registry contents, every orderly run
in which no registry access fails ends, whenever nothing is left to happen, with the registry
holding what the engine holds: under every id the same session, its live status aside, and the
same tasks. -/
theorem quiescent_registry_agrees (config : Config) (registry : Registry) (mux : Mux)
    (git : GitLookup) (now : Nat) (c : Contents) (v : ViewState) (evs : List Event)
    (hf : evs.all (·.faultless) = true)
    (hord : (start (Engine.new config registry mux git now) c v).orderlyAlong evs = true)
    (hq : ((start (Engine.new config registry mux git now) c v).run evs).Quiescent) :
    ((start (Engine.new config registry mux git now) c v).run evs).Agrees := by
  have h₀ := idle_start config registry mux git now c v
  rcases converging_run (sound_start config registry mux git now c v)
      (Engine.SavesOlder.of_idle h₀.reloading) (.inl h₀) hf hord with h | h
  · exact h.agrees hq
  · -- a quiescent deck runs no reload
    have hr := h.reloading
    rw [hq.1] at hr
    cases hr

/-- A session made while a reload runs, under an id the registry lacks. -/
def lateSession : Session :=
  { id := "n", title := "new", projectPath := "/p/n", createdAt := World.epoch }

/-- `x` is deleted and its removal lands before the save of the delete takes the lock and
writes; a reload starts and its load reads; `n` is created before the answer is taken in, so the
reload ends owing a save of `n`, which writes; the preview fetch queued at the start runs. -/
def settledRun : List Event :=
  [.message (.lifecycle (.deleted "x" false)) none 0, .work 1 none, .work 1 none, .commit none,
    .report 0 0, .message .storageChanged none 0, .work 1 none,
    .message (.lifecycle (.created lateSession)) none 0, .report 0 0, .work 1 none, .commit none,
    .work 0 none]

theorem settledRun_agrees :
    (renameDeck.run settledRun).Quiescent ∧ (renameDeck.run settledRun).Agrees := by
  have hq : (renameDeck.run settledRun).Quiescent := by
    unfold Quiescent
    cbv
  exact ⟨hq, quiescent_registry_agrees {} ⟨"/r/sessions.json", "test"⟩ Mux.memory
    GitLookup.inert 0 _ {} settledRun rfl (by cbv) hq⟩

end Deck

end AgentDeck
