import Mathlib
import AgentDeck.Proofs.Cache.Flat
import AgentDeck.Proofs.Engine.Layout
import AgentDeck.Engine.Fetches

/-!
What the result of a side-data fetch does to the engine.

A fetch of one field of one session answers with one message: a pane preview, the dirty flag
of a worktree, its remote, or its review. Handling it releases the fetch and, when the session
is still there, records the answer in the cache under that session and field, or shows a
banner when the fetch failed (`Recorded`). Nothing else of the engine moves (`ResultFrame`),
except that a review moves the session's linked tasks that are not orphaned to the review's
target, and then schedules a save unless a reload is running (`ReviewMoves`).

Main statement: `fetch_results_touch_own_key`. Over any run of fetch results, for whatever
sessions, every task keeps its place and all but its status, and its status only moves on:
from the backlog or running to review, from there to done, and never out of done.
-/

namespace AgentDeck

/-! ### Statuses that move on -/

namespace TaskStatus

/-- How far along a status is: backlog and running come first, review next, done last. -/
def rank : TaskStatus → Nat
  | .backlog => 0
  | .running => 0
  | .inReview => 1
  | .done => 2

/-- `b` is `a`, or lies further along. -/
def Advances (a b : TaskStatus) : Prop := a = b ∨ a.rank < b.rank

theorem Advances.refl (a : TaskStatus) : Advances a a := .inl rfl

theorem Advances.trans {a b c : TaskStatus} (hab : Advances a b) (hbc : Advances b c) :
    Advances a c := by
  rcases hab with rfl | hab
  · exact hbc
  · rcases hbc with rfl | hbc
    · exact .inr hab
    · exact .inr (hab.trans hbc)

theorem Advances.eq_done {b : TaskStatus} (h : Advances .done b) : b = .done := by
  rcases h with h | h
  · exact h.symm
  · cases b <;> simp [rank] at h ⊢

end TaskStatus

/-- The status a review carries its tasks to: review while it is open or a draft, done once it
is merged. A closed review carries them nowhere. -/
def ReviewState.target : ReviewState → Option TaskStatus
  | .open | .draft => some .inReview
  | .merged => some .done
  | .closed => none

namespace Task

theorem reviewStep_eq_some_iff (t : Task) (r : ReviewState) (s : TaskStatus) :
    t.reviewStep r = some s ↔ r.target = some s ∧ s ≠ t.status ∧ t.status ≠ .done := by
  cases r with
  | closed => simp [reviewStep, ReviewState.target]
  | _ =>
    simp only [reviewStep, ReviewState.target, Option.some.injEq]
    split <;> grind

theorem advances_of_target {r : ReviewState} {s u : TaskStatus} (hr : r.target = some s)
    (hs : s ≠ u) (hu : u ≠ .done) : u.Advances s := by
  right
  cases r <;> simp only [ReviewState.target, Option.some.injEq, reduceCtorEq] at hr <;> subst hr <;>
    cases u <;> simp_all [TaskStatus.rank]

/-- The review `r` of the session `id` moves the task to `s`: the task is linked to the session
and not orphaned, it is not done, and `s` is the review's target and not the task's status. -/
def MovedBy (t : Task) (id : String) (r : Review) (s : TaskStatus) : Prop :=
  t.isLinkedTo id = true ∧ t.orphaned = false ∧ t.status ≠ .done ∧ r.state.target = some s ∧
    s ≠ t.status

/-- `t'` is `t` after the review `r` of `id` came: moved where the review moves it, as it was
otherwise. -/
def AfterReview (id : String) (r : Review) (t t' : Task) : Prop :=
  (∃ s, t.MovedBy id r s ∧ t' = { t with status := s }) ∨ ((∀ s, ¬t.MovedBy id r s) ∧ t' = t)

/-- `t'` is `t` with its status moved on, if at all, and everything else kept. -/
def MovesOn (t t' : Task) : Prop := t' = { t with status := t'.status } ∧ t.status.Advances t'.status

theorem MovesOn.refl (t : Task) : MovesOn t t := ⟨rfl, .refl _⟩

theorem MovesOn.trans {t₁ t₂ t₃ : Task} (h₁ : MovesOn t₁ t₂) (h₂ : MovesOn t₂ t₃) :
    MovesOn t₁ t₃ := by
  refine ⟨?_, h₁.2.trans h₂.2⟩
  rw [h₂.1, h₁.1]

/-- A done task stays done. -/
theorem MovesOn.done {t t' : Task} (h : MovesOn t t') (hd : t.status = .done) :
    t'.status = .done :=
  (hd ▸ h.2).eq_done

theorem AfterReview.movesOn {id : String} {r : Review} {t t' : Task} (h : AfterReview id r t t') :
    MovesOn t t' := by
  rcases h with ⟨s, ⟨-, -, hdone, hr, hs⟩, rfl⟩ | ⟨-, rfl⟩
  · exact ⟨rfl, advances_of_target hr hs hdone⟩
  · exact .refl _

end Task

theorem forall₂_movesOn_trans {ts₁ ts₂ ts₃ : List Task} (h₁ : List.Forall₂ Task.MovesOn ts₁ ts₂)
    (h₂ : List.Forall₂ Task.MovesOn ts₂ ts₃) : List.Forall₂ Task.MovesOn ts₁ ts₃ := by
  induction h₁ generalizing ts₃ with
  | nil => exact h₂
  | cons h _ ih =>
    cases h₂ with
    | cons h' hs => exact .cons (h.trans h') (ih hs)

/-- The input is the result of a fetch, handled as it came back. -/
def Input.IsFetchResult : Input → Prop
  | .message m _ _ => (m.fetchKey?).isSome
  | .call _ _ => False

namespace Engine

/-! ### The tasks a review moves -/

section Review

variable (id : String) (r : Review)

theorem step_eq_some_iff (t : Task) (s : TaskStatus) :
    (if (t.isLinkedTo id && !t.orphaned) = true then t.reviewStep r.state else none) = some s ↔
      t.MovedBy id r s := by
  simp only [Task.MovedBy, Bool.and_eq_true, Bool.not_eq_true']
  split
  · next h =>
    rw [Task.reviewStep_eq_some_iff]
    tauto
  · next h =>
    simp only [reduceCtorEq, false_iff]
    tauto

theorem forall₂_advanceTasks (ts : List Task) :
    List.Forall₂ (Task.AfterReview id r) ts (advanceTasks ts id r).1 := by
  rw [advanceTasks, List.forall₂_map_right_iff, List.forall₂_same]
  intro t _
  split
  · next s hs => exact .inl ⟨s, (step_eq_some_iff id r t s).mp hs, rfl⟩
  · next hs =>
    refine .inr ⟨fun s h => ?_, rfl⟩
    have hsome := (step_eq_some_iff id r t s).mpr h
    simp only at hs
    rw [hs] at hsome
    cases hsome

theorem advanceTasks_snd (ts : List Task) :
    (advanceTasks ts id r).2 = true ↔ ∃ t ∈ ts, ∃ s, t.MovedBy id r s := by
  simp only [advanceTasks, List.any_eq_true, Option.isSome_iff_exists, step_eq_some_iff]

end Review

/-! ### What a result may touch -/

/-- The engine with everything a fetch result may change cleared: the in-flight list, the cache
and its stamps, the banner, the tasks, the save counter and the queued jobs. Two engines with
the same rest differ at most there. -/
def resultRest (e : Engine) : Engine :=
  { e with inFlight := [], cache := {}, stamps := 0, banner := none, tasks := [], saveSeq := 0,
           jobs := [] }

/-- `e'` is `e` after the result of the fetch of `f` for `id`: the fetch is released, the cache
changes at most at `(id, f)`, and not at all when `id` is no longer a session, its stamps only
advance, a banner may go up, and every other part of the engine but the tasks, the save
counter and the jobs is as it was. -/
structure ResultFrame (id : String) (f : Field) (e e' : Engine) : Prop where
  rest : e'.resultRest = e.resultRest
  inFlight : e'.inFlight = e.inFlight.filter (· != (id, f))
  cache : ∀ a g, (a, g) ≠ (id, f) → e'.cache.entry? a g = e.cache.entry? a g
  gone : (e.session? id).isNone → e'.cache = e.cache
  stamps : e.stamps ≤ e'.stamps
  banner : e'.banner = e.banner ∨ ∃ text, e'.banner = some ⟨text, e.clock⟩

namespace ResultFrame

variable {id : String} {f : Field} {e e' : Engine}

theorem sessions (h : ResultFrame id f e e') : e'.sessions = e.sessions := by
  have h' := congrArg Engine.sessions h.rest
  exact h'

theorem groups (h : ResultFrame id f e e') : e'.groups = e.groups := by
  have h' := congrArg Engine.groups h.rest
  exact h'

theorem rows (h : ResultFrame id f e e') : e'.rows = e.rows := by
  have h' := congrArg Engine.rows h.rest
  exact h'

theorem selected (h : ResultFrame id f e e') : e'.selected = e.selected := by
  have h' := congrArg Engine.selected h.rest
  exact h'

theorem offset (h : ResultFrame id f e e') : e'.offset = e.offset := by
  have h' := congrArg Engine.offset h.rest
  exact h'

end ResultFrame

/-- A result changes neither the tasks, nor the save counter, nor the jobs. -/
def KeepsTasks (e e' : Engine) : Prop := e'.tasks = e.tasks ∧ e'.saveSeq = e.saveSeq ∧ e'.jobs = e.jobs

/-- `e'` is `e` after the review `r` of `id` came for a session that is there: its tasks moved
as the review moves them, and a save scheduled exactly when one moved and no reload runs. -/
def ReviewMoves (id : String) (r : Review) (e e' : Engine) : Prop :=
  List.Forall₂ (Task.AfterReview id r) e.tasks e'.tasks ∧
    (((∃ t ∈ e.tasks, ∃ s, t.MovedBy id r s) ∧ e.reloading = false ∧
        e'.saveSeq = e.saveSeq + 1 ∧
        e'.jobs = e.jobs ++ [.save e.reloadVersion (e.saveSeq + 1) e.sessions e.groups e'.tasks]) ∨
      (¬((∃ t ∈ e.tasks, ∃ s, t.MovedBy id r s) ∧ e.reloading = false) ∧
        e'.saveSeq = e.saveSeq ∧ e'.jobs = e.jobs))

/-! ### The four handlers record one answer -/

/-- What handling a result for `(id, f)` may make of `e`: the fetch released, and then the
answer written to the cache at its key or the key cleared, both only for a session that is
there, or a banner shown, or nothing more. -/
inductive Recorded (id : String) (f : Field) (e : Engine) : Engine → Prop
  | released : Recorded id f e (e.endFetch id f)
  | stored (v : CacheValue) : (e.session? id).isSome →
      Recorded id f e ((e.endFetch id f).cacheSet id f v)
  | cleared : (e.session? id).isSome → Recorded id f e ((e.endFetch id f).cacheDrop id f)
  | reported (text : String) : Recorded id f e ((e.endFetch id f).showBanner text)

section Recorded

variable {id : String} {f : Field} {e e' : Engine}

@[simp] theorem session?_endFetch (g : Field) (a : String) :
    (e.endFetch id g).session? a = e.session? a := rfl

theorem Recorded.frame (h : Recorded id f e e') : ResultFrame id f e e' := by
  cases h with
  | released => exact ⟨rfl, rfl, fun _ _ _ => rfl, fun _ => rfl, le_rfl, .inl rfl⟩
  | stored v hs =>
    refine ⟨rfl, rfl, fun a g hag => ?_, fun hn => absurd hs (by simp [hn]), Nat.le_succ _,
      .inl rfl⟩
    simp only [cacheSet, TtlCache.entry?_set, hag, ↓reduceIte]
    rfl
  | cleared hs =>
    refine ⟨rfl, rfl, fun a g hag => ?_, fun hn => absurd hs (by simp [hn]), le_rfl, .inl rfl⟩
    simp only [cacheDrop, TtlCache.entry?_invalidate, hag, ↓reduceIte]
    rfl
  | reported text => exact ⟨rfl, rfl, fun _ _ _ => rfl, fun _ => rfl, le_rfl, .inr ⟨text, rfl⟩⟩

theorem Recorded.keepsTasks (h : Recorded id f e e') : KeepsTasks e e' := by
  cases h <;> exact ⟨rfl, rfl, rfl⟩

end Recorded

variable (e : Engine) (id : String)

theorem recorded_onPreviewCaptured (result : Except Error (Option String)) :
    Recorded id .preview e (e.onPreviewCaptured id result) := by
  by_cases hs : (e.session? id).isSome
  · have hn : (e.session? id).isNone = false := by simpa using hs
    cases result with
    | error err =>
      simp only [onPreviewCaptured, session?_endFetch, hn, Bool.false_eq_true, ↓reduceIte]
      exact .released
    | ok v =>
      cases v with
      | none =>
        simp only [onPreviewCaptured, session?_endFetch, hn, Bool.false_eq_true, ↓reduceIte]
        exact .cleared hs
      | some text =>
        simp only [onPreviewCaptured, session?_endFetch, hn, Bool.false_eq_true, ↓reduceIte]
        exact .stored _ hs
  · have hn : (e.session? id).isNone = true := by simpa using hs
    simp only [onPreviewCaptured, session?_endFetch, hn, ↓reduceIte]
    exact .released

theorem recorded_onDirtyChecked (result : Except Error Bool) :
    Recorded id .worktreeDirty e (e.onDirtyChecked id result) := by
  by_cases hs : (e.session? id).isSome
  · have hn : (e.session? id).isNone = false := by simpa using hs
    cases result with
    | error err =>
      simp only [onDirtyChecked, session?_endFetch, hn, Bool.false_eq_true, ↓reduceIte]
      exact .reported _
    | ok d =>
      simp only [onDirtyChecked, session?_endFetch, hn, Bool.false_eq_true, ↓reduceIte]
      exact .stored _ hs
  · have hn : (e.session? id).isNone = true := by simpa using hs
    simp only [onDirtyChecked, session?_endFetch, hn, ↓reduceIte]
    exact .released

theorem recorded_onRemoteChecked (result : Except Error String) :
    Recorded id .worktreeRemote e (e.onRemoteChecked id result) := by
  by_cases hs : (e.session? id).isSome
  · have hn : (e.session? id).isNone = false := by simpa using hs
    cases result with
    | error err =>
      simp only [onRemoteChecked, session?_endFetch, hn, Bool.false_eq_true, ↓reduceIte]
      exact .reported _
    | ok url =>
      simp only [onRemoteChecked, session?_endFetch, hn, Bool.false_eq_true, ↓reduceIte]
      exact .stored _ hs
  · have hn : (e.session? id).isNone = true := by simpa using hs
    simp only [onRemoteChecked, session?_endFetch, hn, ↓reduceIte]
    exact .released

theorem recorded_onReviewFetched {result : Except Error (Option Review)}
    (h : (∀ r, result ≠ .ok (some r)) ∨ (e.session? id).isNone) :
    Recorded id .reviewStatus e (e.onReviewFetched id result) := by
  by_cases hs : (e.session? id).isSome
  · have hn : (e.session? id).isNone = false := by simpa using hs
    have hr : ∀ r, result ≠ .ok (some r) := h.resolve_right (by simp [hn])
    cases result with
    | error err =>
      simp only [onReviewFetched, session?_endFetch, hn, Bool.false_eq_true, ↓reduceIte]
      exact .reported _
    | ok v =>
      cases v with
      | none =>
        simp only [onReviewFetched, session?_endFetch, hn, Bool.false_eq_true, ↓reduceIte]
        exact .stored _ hs
      | some r => exact absurd rfl (hr r)
  · have hn : (e.session? id).isNone = true := by simpa using hs
    simp only [onReviewFetched, session?_endFetch, hn, ↓reduceIte]
    exact .released

theorem onReviewFetched_some {r : Review} (hs : (e.session? id).isSome) :
    e.onReviewFetched id (.ok (some r)) =
      let e₁ := (e.endFetch id .reviewStatus).cacheSet id .reviewStatus (.review (some r))
      if (advanceTasks e₁.tasks id r).2 then { e₁ with tasks := (advanceTasks e₁.tasks id r).1 }.scheduleSave
      else e₁ := by
  have hn : ((e.endFetch id .reviewStatus).session? id).isNone = false := by simpa using hs
  simp only [onReviewFetched, hn, Bool.false_eq_true, ↓reduceIte]

theorem frame_onReviewFetched_some {r : Review} (hs : (e.session? id).isSome) :
    ResultFrame id .reviewStatus e (e.onReviewFetched id (.ok (some r))) ∧
      ReviewMoves id r e (e.onReviewFetched id (.ok (some r))) := by
  have h₁ : ResultFrame id .reviewStatus e _ := (Recorded.stored (.review (some r)) hs).frame
  rw [onReviewFetched_some e id hs]
  dsimp only
  set e₁ := (e.endFetch id .reviewStatus).cacheSet id .reviewStatus (.review (some r))
  have hmoves := forall₂_advanceTasks id r e₁.tasks
  have hany := advanceTasks_snd id r e₁.tasks
  have hre₁ : e₁.reloading = e.reloading := rfl
  -- the tasks moved, if any, and whether a save follows
  split
  · next hadv =>
    have hmoved : ∃ t ∈ e.tasks, ∃ s, t.MovedBy id r s := hany.mp hadv
    unfold scheduleSave
    split
    · next hre =>
      refine ⟨⟨h₁.rest, h₁.inFlight, h₁.cache, h₁.gone, h₁.stamps, h₁.banner⟩, hmoves, .inr ⟨?_, rfl, rfl⟩⟩
      rintro ⟨-, hre'⟩
      rw [hre₁, hre'] at hre
      cases hre
    · next hre =>
      refine ⟨⟨h₁.rest, h₁.inFlight, h₁.cache, h₁.gone, h₁.stamps, h₁.banner⟩, hmoves,
        .inl ⟨hmoved, by rw [← hre₁]; simpa using hre, rfl, rfl⟩⟩
  · next hadv =>
    have hnone : ∀ t ∈ e.tasks, ∀ s, ¬t.MovedBy id r s := by
      intro t ht s hts
      exact hadv (hany.mpr ⟨t, ht, s, hts⟩)
    refine ⟨h₁, List.forall₂_same.mpr fun t ht => .inr ⟨hnone t ht, rfl⟩, .inr ⟨?_, rfl, rfl⟩⟩
    rintro ⟨⟨t, ht, s, hts⟩, -⟩
    exact hnone t ht s hts

/-- **One result.** The result of the fetch of `f` for `id` releases that fetch and records its
answer at `(id, f)` alone; only a review that came for a session still there moves tasks and
may schedule a save. -/
theorem react_fetch_result {m : Message} {f : Field} (hm : m.fetchKey? = some (id, f))
    (stored : Except Error Unit) :
    ResultFrame id f e (e.react m stored) ∧
      (∀ r, m = .reviewFetched id (.ok (some r)) → (e.session? id).isSome →
        ReviewMoves id r e (e.react m stored)) ∧
      ((∀ r, m ≠ .reviewFetched id (.ok (some r))) ∨ (e.session? id).isNone →
        KeepsTasks e (e.react m stored)) := by
  cases m <;> simp only [Message.fetchKey?, reduceCtorEq, Option.some.injEq, Prod.mk.injEq] at hm
  case previewCaptured i result =>
    obtain ⟨hi, rfl⟩ := hm
    subst i
    have h := recorded_onPreviewCaptured e id result
    exact ⟨h.frame, fun _ h' _ => (nomatch h'), fun _ => h.keepsTasks⟩
  case dirtyChecked i result =>
    obtain ⟨hi, rfl⟩ := hm
    subst i
    have h := recorded_onDirtyChecked e id result
    exact ⟨h.frame, fun _ h' _ => (nomatch h'), fun _ => h.keepsTasks⟩
  case remoteChecked i result =>
    obtain ⟨hi, rfl⟩ := hm
    subst i
    have h := recorded_onRemoteChecked e id result
    exact ⟨h.frame, fun _ h' _ => (nomatch h'), fun _ => h.keepsTasks⟩
  case reviewFetched i result =>
    obtain ⟨hi, rfl⟩ := hm
    subst i
    by_cases hcase : (∀ r, result ≠ .ok (some r)) ∨ (e.session? id).isNone
    · have h := recorded_onReviewFetched e id hcase
      refine ⟨h.frame, fun r hr hs => ?_, fun _ => h.keepsTasks⟩
      cases hr
      simp_all
    · simp only [not_or, not_forall, not_not, Bool.not_eq_true, Option.isNone_eq_false_iff] at hcase
      obtain ⟨⟨r, rfl⟩, hs⟩ := hcase
      obtain ⟨hf, hmv⟩ := frame_onReviewFetched_some e id (r := r) (by simpa using hs)
      refine ⟨hf, fun r' hr' _ => ?_, fun hk => ?_⟩
      · cases hr'
        exact hmv
      · rcases hk with hk | hk
        · exact absurd rfl (hk r)
        · simp_all

theorem KeepsTasks.movesOn {e e' : Engine} (h : KeepsTasks e e') :
    List.Forall₂ Task.MovesOn e.tasks e'.tasks := by
  rw [h.1]
  exact List.forall₂_same.mpr fun t _ => .refl t

theorem tasks_movesOn_react {m : Message} (hm : (m.fetchKey?).isSome) (stored : Except Error Unit) :
    List.Forall₂ Task.MovesOn e.tasks (e.react m stored).tasks := by
  obtain ⟨⟨id, f⟩, hkey⟩ := Option.isSome_iff_exists.mp hm
  obtain ⟨-, hmoves, hkeeps⟩ := react_fetch_result e id hkey stored
  by_cases hs : (e.session? id).isSome
  · by_cases hr : ∃ r, m = .reviewFetched id (.ok (some r))
    · obtain ⟨r, hr⟩ := hr
      exact (hmoves r hr hs).1.imp fun _ _ h => h.movesOn
    · exact (hkeeps (.inl fun r h => hr ⟨r, h⟩)).movesOn
  · exact (hkeeps (.inr (by simpa using hs))).movesOn

theorem tasks_movesOn_take {i : Input} (hi : i.IsFetchResult) :
    List.Forall₂ Task.MovesOn e.tasks (e.take i).tasks := by
  cases i with
  | message m stored clock => exact tasks_movesOn_react { e with clock } hi stored
  | call => exact hi.elim

/-- **Runs of results.** Whatever fetch results come back, for whatever sessions and in whatever
order, each task only moves on: its status climbs from backlog or running to in review to done,
and everything else about it stays. -/
theorem tasks_movesOn_run (ins : List Input) (h : ∀ i ∈ ins, i.IsFetchResult) :
    List.Forall₂ Task.MovesOn e.tasks (ins.foldl take e).tasks := by
  -- induction on the results, the engine they start from generalised
  induction ins generalizing e with
  | nil => exact List.forall₂_same.mpr fun t _ => .refl t
  | cons i ins ih =>
    have hstep := tasks_movesOn_take e (h i List.mem_cons_self)
    exact forall₂_movesOn_trans hstep (ih _ fun j hj => h j (List.mem_cons_of_mem _ hj))

/-- **Fetch results touch their own key.** The result of the fetch of `f` for `id` releases that
fetch, may set the banner, and changes the cache at `(id, f)` alone, and not at all once `id` is
gone; sessions, groups, rows and cursor stay. Tasks move only for a review that came for a session
still there: exactly the unorphaned tasks linked to `id`, not done and not yet at the review's
target, go to that target, and a save is scheduled when one moved and no reload is under way.
Over any run of results each task's status only climbs. -/
theorem fetch_results_touch_own_key :
    (∀ (id : String) (f : Field) (m : Message) (stored : Except Error Unit),
      m.fetchKey? = some (id, f) →
        ResultFrame id f e (e.react m stored) ∧
          (∀ r, m = .reviewFetched id (.ok (some r)) → (e.session? id).isSome →
            ReviewMoves id r e (e.react m stored)) ∧
          ((∀ r, m ≠ .reviewFetched id (.ok (some r))) ∨ (e.session? id).isNone →
            KeepsTasks e (e.react m stored))) ∧
      ∀ ins : List Input, (∀ i ∈ ins, i.IsFetchResult) →
        List.Forall₂ Task.MovesOn e.tasks (ins.foldl take e).tasks :=
  ⟨fun id _ _ stored hm => react_fetch_result e id hm stored,
    fun ins h => tasks_movesOn_run e ins h⟩

/-- An engine started on a registry holding the session `x`, with the task `t1` that `x` runs and
the task `t2` linked to `y`, which is no session. -/
def reviewEngine : Engine :=
  (Engine.new {} ⟨"/r/sessions.json", "test"⟩ Mux.memory GitLookup.inert 0).boot
    { sessions := [{ id := "x", title := "one", projectPath := "/p/x", createdAt := World.epoch }],
      tasks := [{ id := "t1", title := "ship", sessionId := some "x", status := .running },
        { id := "t2", title := "land", sessionId := some "y", status := .running }] }
    {}

/-- A merged review. -/
def mergedReview : Review := ⟨7, "pr", "u", .merged⟩

/-- The merged review of `x` comes back to `reviewEngine` and `t1` moves on to done. -/
theorem merged_review_moves_on :
    (∀ i ∈ [Input.message (.reviewFetched "x" (.ok (some mergedReview))) (.ok ()) 1],
        i.IsFetchResult) ∧
      List.Forall₂ Task.MovesOn reviewEngine.tasks
        ([Input.message (.reviewFetched "x" (.ok (some mergedReview))) (.ok ()) 1].foldl take
          reviewEngine).tasks ∧
      ([Input.message (.reviewFetched "x" (.ok (some mergedReview))) (.ok ()) 1].foldl take
          reviewEngine).tasks.map (·.status) = [.done, .running] := by
  have hin : ∀ i ∈ [Input.message (.reviewFetched "x" (.ok (some mergedReview))) (.ok ()) 1],
      i.IsFetchResult := by
    intro i hi
    rw [List.mem_singleton.mp hi]
    rfl
  exact ⟨hin, (fetch_results_touch_own_key reviewEngine).2 _ hin, by cbv⟩

/-- A merged review moves a linked task yet schedules no save while a reload is under way, and
one for `y`, which is no session, moves nothing, though `t2` is linked to `y`, unorphaned and
running. -/
theorem review_moves_unsaved_or_not_at_all :
    (reviewEngine.react .storageChanged (.ok ())).tasks.map (·.status) = [.running, .running] ∧
      ((reviewEngine.react .storageChanged (.ok ())).react
          (.reviewFetched "x" (.ok (some mergedReview))) (.ok ())).tasks.map (·.status) =
        [.done, .running] ∧
      ((reviewEngine.react .storageChanged (.ok ())).react
          (.reviewFetched "x" (.ok (some mergedReview))) (.ok ())).jobs =
        (reviewEngine.react .storageChanged (.ok ())).jobs ∧
      (reviewEngine.react (.reviewFetched "y" (.ok (some mergedReview))) (.ok ())).tasks =
        reviewEngine.tasks ∧
      reviewEngine.tasks.map (fun t => (t.status, t.orphaned)) =
        [(.running, false), (.running, false)] := by
  cbv

end Engine

end AgentDeck
