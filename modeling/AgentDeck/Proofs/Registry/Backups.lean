import Mathlib
import AgentDeck.Registry
import AgentDeck.Proofs.World.Run
import AgentDeck.Proofs.Fs.Folder

/-!
Rolling backups of the registry.

A registry write never edits `sessions.json` in place. It moves `.bak.2` over `.bak.3` and
`.bak` over `.bak.2`, copies the registry to `.bak`, writes the new text to `sessions.tmp`
and moves that over the registry; before the first write there is nothing to back up.

Main statements: from a profile directory holding none of these files, any run of writes
(full saves, single upserts and removals, in any mix) leaves the newest text in the registry,
the three before it in `.bak`, `.bak.2` and `.bak.3`, each present exactly when there was
such a write, and no temporary file; and a write that fails, from any world at all, leaves
what stands at the registry's path as it was, since the only step that touches it is the
last rename (`writes_roll_backups`).
-/

namespace AgentDeck

open AgentDeck.Fs AgentDeck.Path AgentDeck.Act

/-- The bytes a write of the contents stores. -/
def Contents.text (c : Contents) : ByteArray := (Json.pretty c.toJson).toUTF8

namespace Registry

/-- The registry's file is `sessions.json` in the folder `d`. -/
structure Placed (r : Registry) (d : Folder) : Prop where
  path_eq : r.path = d.file "sessions.json"

/-- The names of the registry, its three backups and its temporary file. -/
def slotNames : List String :=
  ["sessions.json", "sessions.bak", "sessions.bak.2", "sessions.bak.3", "sessions.tmp"]

/-- What the registry's files hold after writes of the texts `ts`, the newest first: the
registry the newest, `.bak`, `.bak.2` and `.bak.3` the three before it (nothing where there
was no such write), and no temporary file. -/
def rolled (ts : List ByteArray) (x : String) : Option ByteArray :=
  if x = "sessions.json" then ts[0]?
  else if x = "sessions.bak" then ts[1]?
  else if x = "sessions.bak.2" then ts[2]?
  else if x = "sessions.bak.3" then ts[3]?
  else none

theorem plain_of_mem_slotNames : ∀ x ∈ slotNames, Plain x := by
  intro x hx
  simp only [slotNames, List.mem_cons, List.not_mem_nil, or_false] at hx
  rcases hx with rfl | rfl | rfl | rfl | rfl <;>
    exact ⟨by decide, by decide, by decide, by decide⟩

theorem plain_lock : Plain "sessions.lock" := ⟨by decide, by decide, by decide, by decide⟩

variable {r : Registry} {d : Folder}

theorem Placed.sibling_eq (hr : r.Placed d) {ext : String} (hext : ext ≠ "") :
    r.sibling ext = d.file ("sessions." ++ ext) := by
  have h := @withExtension_ofNames d.names "sessions" ".json"
    ⟨by decide, by decide, by decide, by decide⟩ (by decide) ext hext
  have hjson : ("sessions" ++ ".json" : String) = "sessions.json" := by decide
  have hdot : ("sessions" ++ "." ++ ext : String) = "sessions." ++ ext := by
    rw [show ("sessions" ++ "." : String) = "sessions." by decide]
  rw [hjson, hdot] at h
  rw [sibling, hr.path_eq]
  exact h

theorem Placed.sibling_file (hr : r.Placed d) {ext x : String} (hext : ext ≠ "")
    (hx : "sessions." ++ ext = x) : r.sibling ext = d.file x :=
  hx ▸ hr.sibling_eq hext

theorem parent_file (d : Folder) {x : String} (hx : Plain x) : parent? (d.file x) = some d.path :=
  parent?_ofNames d.plain hx

/-! ### One turn of the backup loop -/

/-- One turn of the backup loop as it runs: the file at `src`, when there is one, is moved
over `dst`, removing what stands at `dst` first. -/
def turn (src dst : String) : Act (ForInStep PUnit) := do
  let b ← Act.pathExists src
  if b = true then do
    let b' ← Act.pathExists dst
    if b' = true then do
      let _ ← (Act.removeFile dst).attempt
      Act.rename src dst
      pure (ForInStep.yield PUnit.unit)
    else do
      Act.rename src dst
      pure (ForInStep.yield PUnit.unit)
  else pure (ForInStep.yield PUnit.unit)

/-- Moving the slot `x` over `y`, when `x` is filled. -/
def shift (x y : String) (v : String → Option ByteArray) : String → Option ByteArray :=
  match v x with
  | none => v
  | some b => Function.update (Function.update v x none) y (some b)

variable {w : World} {N : List String} {v : String → Option ByteArray} {x y z : String}

theorem shift_of_ne (hx : z ≠ x) (hy : z ≠ y) : shift x y v z = v z := by
  cases h : v x <;> simp [shift, h, Function.update, hx, hy]

theorem shift_src (hxy : x ≠ y) : shift x y v x = none := by
  cases h : v x <;> simp [shift, h, Function.update, hxy]

theorem shift_dst : shift x y v y = (v x).or (v y) := by
  cases h : v x <;> simp [shift, h]

theorem shift_of_none (h : v x = none) : shift x y v = v := by
  simp [shift, h]

theorem shift_of_some {b : ByteArray} (h : v x = some b) :
    shift x y v = Function.update (Function.update v x none) y (some b) := by
  simp [shift, h]

/-- Asking whether a slot's file exists answers whether the slot is filled. -/
theorem pathExists_slot (h : d.Holds w.files N v) (hz : z ∈ N) :
    Act.pathExists (d.file z) w = .ok (v z).isSome w := by
  rw [pathExists_apply (located_file d (h.plain z hz)), h.stat_isSome hz]

/-- Making the folder, which stands, changes nothing. -/
theorem mkdirAll_folder (h : d.Holds w.files N v) : Act.mkdirAll d.path w = .ok () w := by
  obtain ⟨t, ht⟩ := h.dir
  rw [mkdirAll_apply, withFiles_apply_ok (d.mkdirChain_path ht _)]

/-- A turn of the backup loop moves a filled backup over the next one, removing what stood
there first, and does nothing when the backup is missing. -/
theorem turn_apply (h : d.Holds w.files N v) (hx : x ∈ N) (hy : y ∈ N)
    (hxy : x ≠ y) :
    ∃ w', turn (d.file x) (d.file y) w = .ok (.yield ()) w' ∧ d.Holds w'.files N (shift x y v) := by
  unfold turn
  have hlx := located_file d (h.plain x hx)
  have hly := located_file d (h.plain y hy)
  cases hvx : v x with
  | none =>
    refine ⟨w, bind_of_ok (pathExists_slot h hx) ?_, (shift_of_none hvx).symm ▸ h⟩
    simp [hvx]
    rfl
  | some b =>
    have hsx : Act.pathExists (d.file x) w = .ok true w := by simpa [hvx] using pathExists_slot h hx
    cases hvy : v y with
    | none =>
      obtain ⟨fs₁, hmv, h₁⟩ := h.rename hx hy hxy hvx
      have hrn : Act.rename (d.file x) (d.file y) w = .ok () { w with files := fs₁ } := by
        rw [rename_eq hlx hly, withFiles_apply_ok hmv]
      refine ⟨{ w with files := fs₁ }, bind_of_ok hsx ?_, ?_⟩
      · refine bind_of_ok (pathExists_slot h hy) ?_
        simp only [hvy, Option.isSome_none, Bool.false_eq_true, ↓reduceIte]
        exact bind_of_ok hrn rfl
      · exact (shift_of_some hvx).symm ▸ h₁
    | some c =>
      -- the file that stood at `y` is removed first, so the rename lands on nothing
      obtain ⟨fs₀, hrm, h₀⟩ := h.removeFile hy hvy
      obtain ⟨fs₁, hmv, h₁⟩ := h₀.rename hx hy hxy (by simpa [Function.update, hxy] using hvx)
      have hat : (Act.removeFile (d.file y)).attempt w = .ok (.ok ()) { w with files := fs₀ } := by
        rw [attempt_apply, removeFile_eq hly, withFiles_apply_ok hrm]
      have hrn : Act.rename (d.file x) (d.file y) { w with files := fs₀ } =
          .ok () { { w with files := fs₀ } with files := fs₁ } := by
        rw [rename_eq hlx hly, withFiles_apply_ok hmv]
      refine ⟨{ { w with files := fs₀ } with files := fs₁ }, bind_of_ok hsx ?_, ?_⟩
      · refine bind_of_ok (pathExists_slot h hy) ?_
        simp only [hvy, Option.isSome_some, ↓reduceIte]
        exact bind_of_ok hat (bind_of_ok hrn rfl)
      · -- removing `y` first makes no difference once `x` lands there
        refine h₁.congr fun z _ => ?_
        by_cases hzy : z = y
        · rw [hzy, Function.update_self, shift_dst, hvx]
          rfl
        · by_cases hzx : z = x
          · rw [hzx, Function.update_of_ne hxy, Function.update_self, shift_src hxy]
          · rw [Function.update_of_ne hzy, Function.update_of_ne hzx, Function.update_of_ne hzy,
              shift_of_ne hzx hzy]

theorem getElem?_or_succ (ts : List ByteArray) (i : Nat) : ts[i]?.or ts[i + 1]? = ts[i]? := by
  cases h : ts[i]? with
  | some t => rfl
  | none =>
    rw [List.getElem?_eq_none_iff] at h
    simp [List.getElem?_eq_none_iff.mpr (by omega : ts.length ≤ i + 1)]

/-- **Rolling.** The backups move one generation on and the registry is copied to `.bak`;
while there is no registry nothing moves. -/
theorem rollBackups_apply (hr : r.Placed d) {ts : List ByteArray}
    (h : d.Holds w.files slotNames (rolled ts)) :
    ∃ w', r.rollBackups w = .ok () w' ∧ d.Holds w'.files slotNames (rolled (ts.take 1 ++ ts)) := by
  have hbak : r.sibling "bak" = d.file "sessions.bak" := hr.sibling_file (by decide) (by decide)
  have hbak2 : r.sibling ("bak." ++ toString 2) = d.file "sessions.bak.2" :=
    hr.sibling_file (by decide) (by decide)
  have hbak3 : r.sibling ("bak." ++ toString 3) = d.file "sessions.bak.3" :=
    hr.sibling_file (by decide) (by decide)
  have hex : Act.pathExists r.path w = .ok ts[0]?.isSome w := by
    rw [hr.path_eq, pathExists_slot h (by decide)]
    rfl
  unfold rollBackups
  rw [show (List.range (backupGenerations - 1)).reverse.map (· + 1) = [2, 1] from rfl]
  simp only [List.forIn_cons, List.forIn_nil, beq_iff_eq, Nat.reduceEqDiff, Nat.reduceAdd,
    ↓reduceIte, hbak, hbak2, hbak3]
  cases ts with
  | nil =>
    refine ⟨w, bind_of_ok hex ?_, h⟩
    rfl
  | cons a rest =>
    obtain ⟨w₁, h₁, hh₁⟩ := turn_apply h (x := "sessions.bak.2") (y := "sessions.bak.3")
      (by decide) (by decide) (by decide)
    obtain ⟨w₂, h₂, hh₂⟩ := turn_apply hh₁ (x := "sessions.bak") (y := "sessions.bak.2")
      (by decide) (by decide) (by decide)
    have ha : shift "sessions.bak" "sessions.bak.2" (shift "sessions.bak.2" "sessions.bak.3"
        (rolled (a :: rest))) "sessions.json" = some a := by
      rw [shift_of_ne (by decide) (by decide), shift_of_ne (by decide) (by decide)]
      rfl
    obtain ⟨fs₃, hc, hh₃⟩ := hh₂.copy (x := "sessions.json") (y := "sessions.bak")
      (by decide) (by decide) ha
    have hcp : Act.copy r.path (d.file "sessions.bak") w₂ = .ok () { w₂ with files := fs₃ } := by
      rw [hr.path_eq, copy_eq (located_file d (plain_of_mem_slotNames _ (by decide)))
        (located_file d (plain_of_mem_slotNames _ (by decide))), withFiles_apply_ok hc]
    refine ⟨{ w₂ with files := fs₃ }, bind_of_ok hex ?_, hh₃.congr fun z hz => ?_⟩
    · exact bind_of_ok (bind_of_ok h₁ (bind_of_ok h₂ rfl)) hcp
    · simp only [slotNames, List.mem_cons, List.not_mem_nil, or_false] at hz
      rcases hz with rfl | rfl | rfl | rfl | rfl
      · rw [Function.update_of_ne (by decide), ha]
        rfl
      · rw [Function.update_self]
        rfl
      · rw [Function.update_of_ne (by decide), shift_dst, shift_of_ne (by decide) (by decide),
          shift_src (by decide), Option.or_none]
        rfl
      · rw [Function.update_of_ne (by decide), shift_of_ne (by decide) (by decide), shift_dst]
        exact (getElem?_or_succ rest 1).symm
      · rw [Function.update_of_ne (by decide), shift_of_ne (by decide) (by decide),
          shift_of_ne (by decide) (by decide)]
        rfl

theorem getElem?_take_one_append (ts : List ByteArray) (i : Nat) :
    (ts.take 1 ++ ts)[i + 1]? = ts[i]? := by
  cases ts <;> simp

/-- **One write.** From rolled files, a write of contents rolls the backups on and leaves
their text in the registry, with no temporary file. -/
theorem writeContents_apply (hr : r.Placed d) {ts : List ByteArray}
    (h : d.Holds w.files slotNames (rolled ts)) (c : Contents) :
    ∃ w', r.writeContents c w = .ok () w' ∧ d.Holds w'.files slotNames (rolled (c.text :: ts)) := by
  have hjson := plain_of_mem_slotNames "sessions.json" (by decide)
  have htmp := plain_of_mem_slotNames "sessions.tmp" (by decide)
  have htemp : r.sibling "tmp" = d.file "sessions.tmp" := hr.sibling_file (by decide) (by decide)
  -- the folder stands, so making it changes nothing
  obtain ⟨w₁, h₁, hh₁⟩ := rollBackups_apply hr h
  obtain ⟨fs₂, hw, hh₂⟩ := hh₁.write (y := "sessions.tmp") (by decide) c.text
  obtain ⟨fs₃, hmv, hh₃⟩ := hh₂.rename (x := "sessions.tmp") (y := "sessions.json")
    (by decide) (by decide) (by decide) (Function.update_self _ _ _)
  have hwr : Act.writeText (d.file "sessions.tmp") (Json.pretty c.toJson) w₁ =
      .ok () { w₁ with files := fs₂ } := by
    rw [writeText_eq (located_file d htmp), withFiles_apply_ok hw]
  have hrn : Act.rename (d.file "sessions.tmp") (d.file "sessions.json") { w₁ with files := fs₂ } =
      .ok () { { w₁ with files := fs₂ } with files := fs₃ } := by
    rw [rename_eq (located_file d htmp) (located_file d hjson), withFiles_apply_ok hmv]
  refine ⟨{ { w₁ with files := fs₂ } with files := fs₃ }, ?_, hh₃.congr fun z hz => ?_⟩
  · unfold writeContents
    rw [hr.path_eq, parent_file d hjson, htemp]
    exact bind_of_ok (mkdirAll_folder h) (bind_of_ok h₁ (bind_of_ok hwr hrn))
  · simp only [slotNames, List.mem_cons, List.not_mem_nil, or_false] at hz
    rcases hz with rfl | rfl | rfl | rfl | rfl
    · rw [Function.update_self]
      rfl
    · rw [Function.update_of_ne (by decide), Function.update_of_ne (by decide),
        Function.update_of_ne (by decide)]
      exact (getElem?_take_one_append ts 0).symm
    · rw [Function.update_of_ne (by decide), Function.update_of_ne (by decide),
        Function.update_of_ne (by decide)]
      exact (getElem?_take_one_append ts 1).symm
    · rw [Function.update_of_ne (by decide), Function.update_of_ne (by decide),
        Function.update_of_ne (by decide)]
      exact (getElem?_take_one_append ts 2).symm
    · rw [Function.update_of_ne (by decide), Function.update_self]
      rfl

/-! ### Taking the lock and working out the contents -/

theorem lock_holds (hr : r.Placed d) (h : d.Holds w.files slotNames v) {w' : World}
    (hl : r.lock w = .ok () w') : d.Holds w'.files slotNames v := by
  have hlock : r.sibling "lock" = d.file "sessions.lock" := hr.sibling_file (by decide) (by decide)
  unfold lock at hl
  rw [hlock, parent_file d plain_lock] at hl
  simp only at hl
  rw [bind_apply_ok (mkdirAll_folder h), touch_eq (located_file d plain_lock), withFiles_apply] at hl
  split at hl
  · next fs' ht =>
    cases hl
    exact h.touch plain_lock (by decide) ht
  · cases hl

theorem readsOnly_readContents (r : Registry) : ReadsOnly r.readContents := by
  refine (readsOnly_readText r.path).attempt.bind fun res => ?_
  split
  · next text =>
    cases Contents.ofText text with
    | ok c => exact readsOnly_pure c
    | error e => exact readsOnly_throw e
  · split
    · exact readsOnly_now.bind fun _ => readsOnly_pure _
    · exact readsOnly_throw _

/-- A write of the registry: a full save of sessions, groups and tasks, one session stored,
or sessions removed. -/
inductive Write where
  | save (sessions : List Session) (tree : GroupTree) (tasks : List Task)
  | upsert (s : Session)
  | remove (ids : List String)

namespace Write

/-- Run the write on the registry. -/
def run (r : Registry) : Write → Act Unit
  | save sessions tree tasks => r.save sessions tree tasks
  | upsert s => r.upsert s
  | remove ids => r.remove ids

/-- The contents the write stores, worked out once the lock is held. -/
def contents (r : Registry) : Write → Act Contents
  | save sessions tree tasks => do return Contents.ofSave sessions tree tasks (← Act.now)
  | upsert s => do
    let c ← r.readContents
    return { c.putSession s with updatedAt := ← Act.now }
  | remove ids => do
    let c ← r.readContents
    return { c.dropSessions ids with updatedAt := ← Act.now }

theorem run_eq (r : Registry) (op : Write) :
    op.run r = (do r.lock; let c ← op.contents r; r.writeContents c) := by
  cases op <;> simp [run, contents, Registry.save, Registry.upsert, Registry.remove, Registry.update]

theorem readsOnly_contents (r : Registry) (op : Write) : ReadsOnly (op.contents r) := by
  cases op with
  | save sessions tree tasks => exact readsOnly_now.bind fun _ => readsOnly_pure _
  | upsert s =>
    exact (readsOnly_readContents r).bind fun _ => readsOnly_now.bind fun _ => readsOnly_pure _
  | remove ids =>
    exact (readsOnly_readContents r).bind fun _ => readsOnly_now.bind fun _ => readsOnly_pure _

/-- The writes `ops`, run one after another from `w`, all succeed and end in `w'`, storing
the contents `cs`, the newest first: each takes the lock, works out its contents and writes
them. -/
inductive Runs (r : Registry) : World → List Write → World → List Contents → Prop
  | nil (w : World) : Runs r w [] w []
  | cons {w w₀ w₁ w₂ w' : World} {op : Write} {ops : List Write} {c : Contents}
      {cs : List Contents} :
      r.lock w = .ok () w₀ → op.contents r w₀ = .ok c w₁ → r.writeContents c w₁ = .ok () w₂ →
      Runs r w₂ ops w' cs → Runs r w (op :: ops) w' (cs ++ [c])

theorem runs_of_forM {r : Registry} :
    ∀ {ops : List Write} {w w' : World}, (ops.forM (run r)) w = .ok () w' →
      ∃ cs, Runs r w ops w' cs
  | [], w, w', h => by
    have h' : (EStateM.Result.ok () w : EStateM.Result Error World Unit) = .ok () w' := h
    cases h'
    exact ⟨[], .nil w⟩
  | op :: ops, w, w', h => by
    have h' : (run r op >>= fun _ => ops.forM (run r)) w = .ok () w' := h
    obtain ⟨_, w₂, hop, hrest⟩ := bind_eq_ok h'
    rw [run_eq] at hop
    obtain ⟨_, w₀, hl, hcw⟩ := bind_eq_ok hop
    obtain ⟨c, w₁, hc, hw⟩ := bind_eq_ok hcw
    obtain ⟨cs, hcs⟩ := runs_of_forM hrest
    exact ⟨cs ++ [c], .cons hl hc hw hcs⟩

end Write

/-- **Rolled over a run.** Each write of a run moves the generations one on, so after the run
the registry and its backups hold the texts of its last writes, newest first, over what they
held before. -/
theorem Write.Runs.holds (hr : r.Placed d) {ops : List Write} {w' : World} {cs : List Contents}
    (hrun : Write.Runs r w ops w' cs) :
    ∀ ts, d.Holds w.files slotNames (rolled ts) →
      d.Holds w'.files slotNames (rolled (cs.map Contents.text ++ ts)) := by
  induction hrun with
  | nil w =>
    intro ts h
    simpa using h
  | @cons w w₀ w₁ w₂ w' op ops c cs hl hc hw _ ih =>
    intro ts h
    have h₀ := lock_holds hr h hl
    -- working out the contents only reads
    have hw₁ : w₁ = w₀ := by
      have hro := Write.readsOnly_contents r op w₀
      rwa [hc] at hro
    subst hw₁
    obtain ⟨w₂', hw', h₂⟩ := writeContents_apply hr h₀ c
    rw [hw] at hw'
    cases hw'
    simpa using ih (c.text :: ts) h₂

/-! ### A failed write -/

section Failure

variable {u : Option Fs.Entry}

theorem turn_keeps {x y z : String} (hx : Plain x) (hy : Plain y) (hz : Plain z) (hxy : x ≠ y)
    (hzx : z ≠ x) (hzy : z ≠ y) :
    Keeps (fun w => w.files.get? (d.file z) = u) (turn (d.file x) (d.file y)) := by
  have hmv := keeps_get_rename (u := u) (located_file d hx) (located_file d hy) (d.file_ne hxy)
    (d.file_ne_root hx.ne_empty) (d.file_ne_root hy.ne_empty) (d.file_ne hzx) (d.file_ne hzy)
    (not_under_sibling d.names hz x) (not_under_sibling d.names hz y)
  have hrm := keeps_get_removeFile (u := u) (located_file d hy) (d.file_ne hzy)
    (not_under_sibling d.names hz y)
  unfold turn
  refine (readsOnly_pathExists _).keeps.bind fun b => ?_
  split
  · refine (readsOnly_pathExists _).keeps.bind fun b' => ?_
    split
    · exact hrm.attempt.bind fun _ => hmv.bind fun _ => (readsOnly_pure _).keeps
    · exact hmv.bind fun _ => (readsOnly_pure _).keeps
  · exact (readsOnly_pure _).keeps

theorem mkdirAll_keeps : Keeps (fun w => w.files.get? (d.file "sessions.json") = u)
    (Act.mkdirAll d.path) :=
  keeps_get_mkdirAll d.plain fun j _ => d.file_ne_take (x := "sessions.json") (by decide) j

theorem lock_keeps (hr : r.Placed d) :
    Keeps (fun w => w.files.get? (d.file "sessions.json") = u) r.lock := by
  have hlock : r.sibling "lock" = d.file "sessions.lock" := hr.sibling_file (by decide) (by decide)
  unfold lock
  rw [hlock]
  dsimp only
  rw [parent_file d plain_lock]
  exact mkdirAll_keeps.bind fun _ =>
    keeps_get_touch (located_file d plain_lock) (d.file_ne (x := "sessions.json") (by decide))

theorem rollBackups_keeps (hr : r.Placed d) :
    Keeps (fun w => w.files.get? (d.file "sessions.json") = u) r.rollBackups := by
  have hbak : r.sibling "bak" = d.file "sessions.bak" := hr.sibling_file (by decide) (by decide)
  have hbak2 : r.sibling ("bak." ++ toString 2) = d.file "sessions.bak.2" :=
    hr.sibling_file (by decide) (by decide)
  have hbak3 : r.sibling ("bak." ++ toString 3) = d.file "sessions.bak.3" :=
    hr.sibling_file (by decide) (by decide)
  have hp : ∀ x ∈ slotNames, Plain x := plain_of_mem_slotNames
  unfold rollBackups
  rw [show (List.range (backupGenerations - 1)).reverse.map (· + 1) = [2, 1] from rfl]
  refine (readsOnly_pathExists _).keeps.bind fun b => ?_
  split
  · refine (keeps_forIn _ _ fun i hi s => ?_).bind fun _ => ?_
    · simp only [List.mem_cons, List.not_mem_nil, or_false] at hi
      rcases hi with rfl | rfl
      · simp only [beq_iff_eq, Nat.reduceEqDiff, Nat.reduceAdd, ↓reduceIte, hbak2, hbak3]
        exact turn_keeps (x := "sessions.bak.2") (y := "sessions.bak.3") (z := "sessions.json")
          (hp _ (by decide)) (hp _ (by decide)) (hp _ (by decide)) (by decide) (by decide)
          (by decide)
      · simp only [beq_iff_eq, Nat.reduceAdd, ↓reduceIte, hbak, hbak2]
        exact turn_keeps (x := "sessions.bak") (y := "sessions.bak.2") (z := "sessions.json")
          (hp _ (by decide)) (hp _ (by decide)) (hp _ (by decide)) (by decide) (by decide)
          (by decide)
    · rw [hr.path_eq, hbak]
      exact keeps_get_copy (located_file d (hp "sessions.json" (by decide)))
        (located_file d (hp "sessions.bak" (by decide))) (d.file_ne (by decide))
  · exact (readsOnly_pure _).keeps

theorem writeContents_keepsOnFailure (hr : r.Placed d) (c : Contents) :
    KeepsOnFailure (fun w => w.files.get? (d.file "sessions.json") = u) (r.writeContents c) := by
  have hjson := plain_of_mem_slotNames "sessions.json" (by decide)
  have htmp := plain_of_mem_slotNames "sessions.tmp" (by decide)
  have htemp : r.sibling "tmp" = d.file "sessions.tmp" := hr.sibling_file (by decide) (by decide)
  unfold writeContents
  rw [hr.path_eq, parent_file d hjson, htemp]
  refine KeepsOnFailure.bind mkdirAll_keeps fun _ => ?_
  refine KeepsOnFailure.bind (rollBackups_keeps hr) fun _ => ?_
  refine KeepsOnFailure.bind (keeps_get_writeText (located_file d htmp)
    (d.file_ne (x := "sessions.json") (by decide)) _) fun _ => ?_
  rw [rename_eq (located_file d htmp) (located_file d hjson)]
  exact keepsOnFailure_withFiles _

end Failure

/-- **Atomicity.** A write that fails, at whatever step and from whatever world, leaves what
stands at the registry's path as it was: never a partial text. -/
theorem failed_write_keeps_registry (hr : r.Placed d) (op : Write) {w w' : World} {e : Error}
    (h : op.run r w = .error e w') : w'.files.get? r.path = w.files.get? r.path := by
  rw [hr.path_eq]
  have hk : KeepsOnFailure (fun w₀ => w₀.files.get? (d.file "sessions.json") =
      w.files.get? (d.file "sessions.json")) (op.run r) := by
    rw [Write.run_eq]
    exact KeepsOnFailure.bind (lock_keeps hr) fun _ =>
      KeepsOnFailure.bind (Write.readsOnly_contents r op).keeps fun c =>
        writeContents_keepsOnFailure hr c
  exact hk w e w' rfl h

theorem rolled_nil (x : String) : rolled [] x = none := by
  simp [rolled]

/-- **Rolling backups.** From a profile folder holding none of the registry's files (no
registry, no backups, no temporary file), writes run one after another that all succeed
(full saves, upserts and removals in any mix) leave the registry holding the text of the
last, `.bak`, `.bak.2` and `.bak.3` those of the three before it, each there exactly when
there was such a write, and no temporary file. A write that fails leaves what stands at the
registry's path as it was. -/
theorem writes_roll_backups (hr : r.Placed d) :
    (∀ (ops : List Write) (w w' : World), d.Holds w.files slotNames (fun _ => none) →
      (ops.forM (Write.run r)) w = .ok () w' →
      ∃ cs, Write.Runs r w ops w' cs ∧
        d.Holds w'.files slotNames (rolled (cs.map Contents.text))) ∧
    ∀ (op : Write) (w w' : World) (e : Error), op.run r w = .error e w' →
      w'.files.get? r.path = w.files.get? r.path := by
  refine ⟨fun ops w w' hfresh hrun => ?_, fun op w w' e h => failed_write_keeps_registry hr op h⟩
  obtain ⟨cs, hcs⟩ := Write.runs_of_forM hrun
  have h₀ : d.Holds w.files slotNames (rolled []) := hfresh.congr fun x _ => rolled_nil x
  refine ⟨cs, hcs, ?_⟩
  simpa using hcs.holds hr [] h₀

/-- The profile folder `/profile`. -/
def profileFolder : Folder := ⟨["profile"], by
  intro n hn
  rw [List.mem_singleton.mp hn]
  exact ⟨by decide, by decide, by decide, by decide⟩⟩

theorem profile_writes_roll_backups :
    Placed ⟨"/profile/sessions.json", "default"⟩ profileFolder ∧
    ((∀ (ops : List Write) (w w' : World), profileFolder.Holds w.files slotNames (fun _ => none) →
      (ops.forM (Write.run ⟨"/profile/sessions.json", "default"⟩)) w = .ok () w' →
      ∃ cs, Write.Runs ⟨"/profile/sessions.json", "default"⟩ w ops w' cs ∧
        profileFolder.Holds w'.files slotNames (rolled (cs.map Contents.text))) ∧
    ∀ (op : Write) (w w' : World) (e : Error),
      op.run ⟨"/profile/sessions.json", "default"⟩ w = .error e w' →
      w'.files.get? "/profile/sessions.json" = w.files.get? "/profile/sessions.json") :=
  ⟨⟨by decide⟩, writes_roll_backups ⟨by decide⟩⟩

end Registry

end AgentDeck
