import Mathlib
import AgentDeck.Logs
import AgentDeck.Proofs.World.Run

/-!
Upkeep of the pane logs.

The logs of a profile are the files of one directory whose names have the extension `log`. The
check cuts each log over the size limit down to its last `keepBytes` bytes and counts it; the
full pass makes the check, then removes each log whose stem names no known session and counts
it. Both are folds over the directory's logs in which the turn for a log changes that log's file
and nothing else (`foldlM_slots`), so from a directory of distinct files every step succeeds and
the effect of a pass is read off name by name (`log_upkeep_cuts_and_prunes`).

Two things there are not what one might expect. The check counts the logs over the limit, not
the logs it shortened: a log over the limit that is within `keepBytes` is counted and kept whole
(`check_counts_log_kept_whole`). And a known session keeps its log only when its id has no slash:
the log of the session `../logs/a` is `logs/a.log`, whose stem `a` is no known session, so the
full pass removes it (`maintain_removes_log_of_known_session`).
-/

namespace AgentDeck

namespace Path

theorem splitDot_log {id : String} (hid : id ≠ "") : splitDot (id ++ ".log") = (id, some "log") := by
  have hne : (id ++ ".log" == "..") = false := by
    rw [beq_eq_false_iff_ne]
    intro h
    have := congrArg (fun s => s.toList.length) h
    simp at this
  -- the last dot is the one before `log`, and what stands before it is the id
  have hsplit : Text.splitLast '.' (id ++ ".log").toList = some (id.toList, "log".toList) := by
    rw [String.toList_append, show (".log" : String).toList = '.' :: "log".toList from rfl,
      Text.splitLast, Text.splitOnChar_append_sep,
      @Text.splitOnChar_of_not_mem '.' "log".toList (by decide)]
    obtain ⟨q, qs, hq⟩ := List.exists_cons_of_ne_nil
      (List.reverse_ne_nil_iff.mpr (@Text.splitOnChar_ne_nil '.' id.toList))
    rw [List.reverse_append, hq, List.reverse_singleton, List.singleton_append]
    simp only
    rw [← hq, List.reverse_reverse, Text.intercalate_splitOnChar]
  have hempty : id.toList.isEmpty = false := by simpa using hid
  rw [splitDot, hne, hsplit]
  simp [hempty]

theorem plain_log {id : String} (h : '/' ∉ id.toList) : Plain (id ++ ".log") where
  ne_empty := by
    intro he
    have := congrArg (fun s => s.toList.length) he
    simp at this
  no_slash := by simp [h]
  ne_dot := by
    intro he
    have := congrArg (fun s => s.toList.length) he
    simp at this
  ne_dotdot := by
    intro he
    have := congrArg (fun s => s.toList.length) he
    simp at this

end Path

namespace Fs

namespace Folder

open AgentDeck.Path

variable (d : Folder) {x : String}

theorem fileName?_file (hx : Plain x) : fileName? (d.file x) = some x := by
  have hall : ∀ n ∈ d.names ++ [x], Plain n :=
    List.forall_mem_append.mpr ⟨d.plain, by simpa using hx⟩
  rw [fileName?, file, components_ofNames hall, List.map_append, ← List.cons_append,
    List.map_singleton, List.getLast?_concat]

theorem join_path (hx : Plain x) : join d.path x = d.file x := join_ofNames d.plain hx

/-- The files `fs'` differ from `fs` at most at the files of the names `N` of the folder and
what stands under them. -/
def Confined (N : List String) (fs fs' : Files) : Prop :=
  ∀ q, (∀ y ∈ N, q ≠ d.file y ∧ ¬Under (d.file y) q) → fs'.get? q = fs.get? q

/-- `fs'` differs from `fs` only in what the files of the names `N` hold: every other path holds
what it held, and the same paths stand, in the same order. -/
structure Rewritten (N : List String) (fs fs' : Files) : Prop where
  confined : d.Confined N fs fs'
  keys : fs'.entries.map Prod.fst = fs.entries.map Prod.fst

variable {d} {N : List String} {fs₁ fs₂ fs₃ : Files}

theorem Confined.refl (fs : Files) : d.Confined N fs fs := fun _ _ => rfl

theorem Confined.trans (h₁ : d.Confined N fs₁ fs₂) (h₂ : d.Confined N fs₂ fs₃) :
    d.Confined N fs₁ fs₃ := fun q hq => (h₂ q hq).trans (h₁ q hq)

theorem Rewritten.refl (fs : Files) : d.Rewritten N fs fs := ⟨Confined.refl fs, rfl⟩

theorem Rewritten.trans (h₁ : d.Rewritten N fs₁ fs₂) (h₂ : d.Rewritten N fs₂ fs₃) :
    d.Rewritten N fs₁ fs₃ := ⟨h₁.confined.trans h₂.confined, h₂.keys.trans h₁.keys⟩

end Folder

namespace Files

variable {fs fs' : Files} {p : String}

theorem keys_put (h : (fs.entries.lookup p).isSome) (e : Entry) :
    (fs.put p e).entries.map Prod.fst = fs.entries.map Prod.fst := by
  simp only [put, h, if_true, List.map_map]
  congr 1
  funext ⟨k, v⟩
  simp only [Function.comp_apply]
  split <;> rfl

theorem list_congr (hk : fs'.entries.map Prod.fst = fs.entries.map Prod.fst)
    {t t' : Nat} (hd : fs.stat p = .ok (.dir t)) (hd' : fs'.stat p = .ok (.dir t')) :
    fs'.list p = fs.list p := by
  have hnames : fs'.entries.filterMap (fun e =>
        if (e.1 != "/" && parentOf e.1 == p) = true then some (baseName e.1) else none) =
      fs.entries.filterMap (fun e =>
        if (e.1 != "/" && parentOf e.1 == p) = true then some (baseName e.1) else none) := by
    have := congrArg (List.filterMap fun k =>
      if (k != "/" && parentOf k == p) = true then some (baseName k) else none) hk
    rwa [List.filterMap_map, List.filterMap_map] at this
  simp only [list, hd, hd', hnames]
  rfl

end Files

end Fs

namespace Act

open AgentDeck.Fs AgentDeck.Path

variable {α β : Type} {w : World}

theorem filterMapM_apply {f : α → Act (Option β)} {p : α → Bool} {g : α → β} {L : List α}
    (h : ∀ x ∈ L, f x w = .ok (if p x then some (g x) else none) w) :
    L.filterMapM f w = .ok ((L.filter p).map g) w := by
  induction L with
  | nil => rfl
  | cons x L ih =>
    rw [List.filterMapM_cons, bind_apply_ok (h x List.mem_cons_self)]
    have hL := ih fun y hy => h y (List.mem_cons_of_mem x hy)
    cases hp : p x with
    | false => simpa [hp] using hL
    | true =>
      simp only [hp, if_true, List.filter_cons_of_pos, List.map_cons]
      rw [bind_apply_ok hL]
      rfl

variable {d : Folder} {N L : List String} {v : String → Option ByteArray} {x : String}

theorem list_apply {ns : List String} (hls : w.files.list d.path = .ok ns) :
    list d.path w = .ok ns w := by
  have hd : Located d.path := located_ofNames d.plain
  simp only [list, bind_apply, abs_apply hd]
  rw [show (get : Act World) w = .ok w w from rfl]
  simp only [hls]
  rfl

theorem stat_slot (h : d.Holds w.files N v) (hx : x ∈ N) {c : ByteArray} (hc : v x = some c) :
    ∃ m t, stat (d.file x) w = .ok (.file c m t) w := by
  obtain ⟨m, t, hs⟩ := h.stat_file hx hc
  refine ⟨m, t, ?_⟩
  simp only [stat, bind_apply, abs_apply (located_file d (h.plain x hx))]
  rw [show (get : Act World) w = .ok w w from rfl]
  simp only [hs]
  rfl

theorem readBytes_slot (h : d.Holds w.files N v) (hx : x ∈ N) {c : ByteArray}
    (hc : v x = some c) : readBytes (d.file x) w = .ok c w := by
  obtain ⟨m, t, hs⟩ := h.stat_file hx hc
  simp only [readBytes, bind_apply, abs_apply (located_file d (h.plain x hx))]
  rw [show (get : Act World) w = .ok w w from rfl]
  simp only [Files.read, hs]
  rfl

/-- **A pass over slots.** Take a fold over distinct names of the folder whose turn for a name
holding `b x` succeeds, counts the name when `k x`, leaves `g x` in its slot and moves the world
along a preorder `R`. The fold succeeds, counts the names of the pass with `k`, leaves `g` in
their slots and every other slot as it was, and moves the world along `R`. -/
theorem foldlM_slots (R : World → World → Prop) (hrefl : ∀ w, R w w)
    (htrans : ∀ {w₁ w₂ w₃}, R w₁ w₂ → R w₂ w₃ → R w₁ w₃)
    {f : Nat → String → Act Nat} {b : String → ByteArray} {g : String → Option ByteArray}
    {k : String → Bool}
    (hf : ∀ x ∈ L, ∀ n w v, d.Holds w.files N v → v x = some (b x) →
      ∃ w', f n x w = .ok (n + if k x then 1 else 0) w' ∧
        d.Holds w'.files N (Function.update v x (g x)) ∧ R w w')
    (hL : L.Nodup) :
    ∀ n w v, d.Holds w.files N v → (∀ x ∈ L, v x = some (b x)) →
      ∃ w', L.foldlM f n w = .ok (n + (L.filter k).length) w' ∧
        d.Holds w'.files N (fun y => if y ∈ L then g y else v y) ∧ R w w' := by
  induction L with
  | nil =>
    intro n w v h _
    exact ⟨w, rfl, h.congr fun y _ => by simp, hrefl w⟩
  | cons x L ih =>
    intro n w v h hv
    obtain ⟨hxL, hnd⟩ := List.nodup_cons.mp hL
    obtain ⟨w₁, hf₁, h₁, hR₁⟩ := hf x List.mem_cons_self n w v h (hv x List.mem_cons_self)
    -- the names after `x` still hold what they held: the turn for `x` touched only its slot
    have hv₁ : ∀ y ∈ L, Function.update v x (g x) y = some (b y) := fun y hy => by
      have hyx : y ≠ x := fun he => hxL (he ▸ hy)
      rw [Function.update_of_ne hyx]
      exact hv y (List.mem_cons_of_mem x hy)
    obtain ⟨w₂, hf₂, h₂, hR₂⟩ :=
      ih (fun y hy => hf y (List.mem_cons_of_mem x hy)) hnd _ w₁ _ h₁ hv₁
    refine ⟨w₂, ?_, h₂.congr fun y _ => ?_, htrans hR₁ hR₂⟩
    · rw [List.foldlM_cons, bind_apply_ok hf₁, hf₂, List.filter_cons]
      cases k x with
      | false => simp
      | true => simp; omega
    · by_cases hy : y ∈ L
      · simp [hy]
      · by_cases hyx : y = x
        · subst hyx
          simp [hy]
        · simp [hy, hyx]

end Act

namespace LogConfig

/-- What the check leaves of a log: one over the size limit keeps its last `keepBytes` bytes,
or all of them when it has fewer; any other is kept whole. -/
def cut (cfg : LogConfig) (b : ByteArray) : ByteArray :=
  if b.size ≤ cfg.maxBytes then b else b.extract (b.size - min b.size cfg.keepBytes) b.size

end LogConfig

namespace PaneLogs

open AgentDeck.Fs AgentDeck.Path AgentDeck.Act

/-- The name has the extension `log`. -/
def isLogName (x : String) : Bool := (splitDot x).2 == some "log"

/-- What the check leaves in the file of the name `x`, which held `b x`. -/
def checked (cfg : LogConfig) (b : String → ByteArray) (x : String) : ByteArray :=
  if isLogName x then cfg.cut (b x) else b x

/-- The name is that of a log of no session in `known`. -/
def orphanLog (known : List String) (x : String) : Bool :=
  isLogName x && !known.contains (splitDot x).1

variable {d : Folder} {N : List String} {v : String → Option ByteArray} {x : String} {w : World}
  {cfg : LogConfig} {ns : List String} {b : String → ByteArray}

theorem extension?_file (hx : Plain x) : extension? (d.file x) = (splitDot x).2 := by
  simp [extension?, d.fileName?_file hx]

theorem fileStem?_file (hx : Plain x) : fileStem? (d.file x) = some (splitDot x).1 := by
  simp [fileStem?, d.fileName?_file hx]

/-- **The logs of a directory.** In a directory that stands and holds files only, the logs are
the files whose names have the extension `log`, in the order of the listing, with their
sizes. -/
theorem logs_apply (hls : w.files.list d.path = .ok ns)
    (h : d.Holds w.files ns fun x => some (b x)) :
    (⟨d.path, cfg⟩ : PaneLogs).logs w =
      .ok ((ns.filter isLogName).map fun x => (d.file x, (b x).size)) w := by
  unfold logs
  rw [bind_apply, attempt_apply, list_apply hls]
  dsimp only
  rw [pure_bind]
  refine filterMapM_apply fun x hx => ?_
  have hpx := h.plain x hx
  obtain ⟨m, t, hs⟩ := stat_slot h hx rfl
  rw [d.join_path hpx, extension?_file hpx]
  by_cases hlog : (splitDot x).2 = some "log"
  · simp only [hlog, bne_self_eq_false, Bool.false_eq_true, if_false, isLogName,
      beq_self_eq_true, if_true]
    rw [bind_apply, attempt_apply, hs]
    rfl
  · have hne : ((splitDot x).2 != some "log") = true := by simpa using hlog
    simp only [hne, if_true, isLogName, beq_iff_eq, hlog, if_false]
    rfl

/-! ### The check -/

theorem cutToTail_apply (h : d.Holds w.files N v) (hx : x ∈ N) {c : ByteArray}
    (hc : v x = some c) (keep : Nat) :
    ∃ w', cutToTail (d.file x) keep w = .ok () w' ∧
      d.Holds w'.files N
        (Function.update v x (some (c.extract (c.size - min c.size keep) c.size))) ∧
      d.Rewritten N w.files w'.files := by
  unfold cutToTail
  rw [bind_apply_ok (readBytes_slot h hx hc)]
  by_cases hk : c.size ≤ keep
  · -- a file within the tail is kept whole
    refine ⟨w, by simp [hk]; rfl, ?_, Folder.Rewritten.refl _⟩
    rw [min_eq_left hk, Nat.sub_self, ByteArray.extract_zero_size, ← hc, Function.update_eq_self]
    exact h
  · have hpx := h.plain x hx
    obtain ⟨m, t, hg⟩ : ∃ m t, w.files.get? (d.file x) = some (.file c m t) := by
      simpa [hc, Files.Stores] using h.stores x hx
    have hw := Files.write_of_file (h.reach hpx) hg (c.extract (c.size - keep) c.size)
    obtain ⟨fs', hw', h'⟩ := h.write hx (c.extract (c.size - keep) c.size)
    rw [hw, Except.ok.injEq] at hw'
    refine ⟨{ w with files := fs' }, ?_, ?_, ?_, ?_⟩
    · simp only [hk, if_false, writeBytes, bind_apply, abs_apply (located_file d hpx)]
      exact hw' ▸ withFiles_apply_ok hw
    · rwa [min_eq_right (by omega)]
    · intro q hq
      rw [← hw']
      exact Files.get?_put_of_ne _ (hq x hx).1 _
    · -- the file stood already, so the write replaces its entry in place
      have hl : (w.files.entries.lookup (d.file x)).isSome := by
        rw [← Files.get?_eq_lookup _ (d.file_ne_root hpx.ne_empty), hg]
        rfl
      rw [← hw']
      exact Files.keys_put hl _

theorem cutStep_apply (l : PaneLogs) (h : d.Holds w.files N v) (hx : x ∈ N) {c : ByteArray}
    (hc : v x = some c) (n : Nat) :
    ∃ w', l.cutStep n (d.file x, c.size) w =
        .ok (n + if l.config.maxBytes < c.size then 1 else 0) w' ∧
      d.Holds w'.files N (Function.update v x (some (l.config.cut c))) ∧
      d.Rewritten N w.files w'.files := by
  by_cases hle : c.size ≤ l.config.maxBytes
  · refine ⟨w, ?_, ?_, Folder.Rewritten.refl _⟩
    · simp [cutStep, hle, Nat.not_lt.mpr hle]
      rfl
    · rw [LogConfig.cut, if_pos hle, ← hc, Function.update_eq_self]
      exact h
  · obtain ⟨w', hcut, h', hr⟩ := cutToTail_apply h hx hc l.config.keepBytes
    refine ⟨w', ?_, ?_, hr⟩
    · simp only [cutStep, hle, if_false]
      rw [bind_apply, attempt_apply, hcut]
      simp [show l.config.maxBytes < c.size by omega]
      rfl
    · rwa [LogConfig.cut, if_neg hle]

/-- **The check.** In a directory of distinct files, the check cuts every log over the limit to
its tail and leaves every other file, and every path outside the directory's files, as it was;
the same paths stand after it. It answers the number of logs over the limit. -/
theorem check_apply (cfg : LogConfig) (hls : w.files.list d.path = .ok ns) (hnd : ns.Nodup)
    (h : d.Holds w.files ns fun x => some (b x)) :
    ∃ w', (⟨d.path, cfg⟩ : PaneLogs).check w =
        .ok (ns.filter fun x => isLogName x && cfg.maxBytes < (b x).size).length w' ∧
      d.Holds w'.files ns (fun x => some (checked cfg b x)) ∧ d.Rewritten ns w.files w'.files := by
  unfold check
  rw [bind_apply_ok (logs_apply hls h), List.foldlM_map]
  obtain ⟨w', hf, h', hr⟩ := foldlM_slots (fun w w' => d.Rewritten ns w.files w'.files)
    (fun w => Folder.Rewritten.refl _) (fun h₁ h₂ => h₁.trans h₂) (b := b)
    (g := fun x => some (cfg.cut (b x))) (k := fun x => decide (cfg.maxBytes < (b x).size))
    (fun x hx n w v hv hvx => by
      simpa using cutStep_apply ⟨d.path, cfg⟩ hv (List.mem_of_mem_filter hx) hvx n)
    (hnd.filter _) 0 w _ h (fun _ _ => rfl)
  refine ⟨w', ?_, h'.congr fun x hx => ?_, hr⟩
  · rw [hf, List.filter_filter, Nat.zero_add]
    congr 2
    exact List.filter_congr fun x _ => Bool.and_comm _ _
  · by_cases hlog : isLogName x <;> simp [checked, hlog, hx]

/-! ### The full pass -/

theorem removeStep_apply (known : List String) (h : d.Holds w.files N v) (hx : x ∈ N)
    {c : ByteArray} (hc : v x = some c) (n s : Nat) :
    ∃ w', removeStep known n (d.file x, s) w =
        .ok (n + if known.contains (splitDot x).1 then 0 else 1) w' ∧
      d.Holds w'.files N
        (Function.update v x (if known.contains (splitDot x).1 then some c else none)) ∧
      d.Confined N w.files w'.files := by
  have hpx := h.plain x hx
  simp only [removeStep, fileStem?_file hpx]
  cases hk : known.contains (splitDot x).1 with
  | true =>
    refine ⟨w, by simp; rfl, ?_, Folder.Confined.refl _⟩
    rw [if_pos rfl, ← hc, Function.update_eq_self]
    exact h
  | false =>
    obtain ⟨fs', hrm, h'⟩ := h.removeFile hx hc
    refine ⟨{ w with files := fs' }, ?_, by simpa using h', ?_⟩
    · simp only [Bool.false_eq_true, if_false]
      rw [bind_apply, attempt_apply, removeFile_eq (located_file d hpx), withFiles_apply_ok hrm]
      rfl
    · exact fun q hq => Files.get?_removeFile hrm (hq x hx).1 (hq x hx).2

/-- **The full pass.** In a directory of distinct files, the full pass makes the check, then
removes every log whose stem names no known session; it changes nothing outside the directory's
files, and answers how many logs the check counted and how many it removed. -/
theorem maintain_apply (cfg : LogConfig) (known : List String) (hls : w.files.list d.path = .ok ns)
    (hnd : ns.Nodup) (h : d.Holds w.files ns fun x => some (b x)) :
    ∃ w', (⟨d.path, cfg⟩ : PaneLogs).maintain known w =
        .ok ⟨(ns.filter fun x => isLogName x && cfg.maxBytes < (b x).size).length,
          (ns.filter (orphanLog known)).length⟩ w' ∧
      d.Holds w'.files ns (fun x => if orphanLog known x then none else some (checked cfg b x)) ∧
      d.Confined ns w.files w'.files := by
  obtain ⟨w₁, hc, h₁, hr₁⟩ := check_apply cfg hls hnd h
  -- the check rewrites files in place, so the directory lists the same names after it
  have hls₁ : w₁.files.list d.path = .ok ns := by
    obtain ⟨t, ht⟩ := h.dir
    obtain ⟨t', ht'⟩ := h₁.dir
    rw [Files.list_congr hr₁.keys ht ht', hls]
  obtain ⟨w₂, hf, h₂, hr₂⟩ := foldlM_slots (fun w w' => d.Confined ns w.files w'.files)
    (fun w => Folder.Confined.refl _) (fun h₁ h₂ => h₁.trans h₂) (L := ns.filter isLogName)
    (f := fun n x => removeStep known n (d.file x, (checked cfg b x).size)) (b := checked cfg b)
    (g := fun x => if known.contains (splitDot x).1 then some (checked cfg b x) else none)
    (k := fun x => !known.contains (splitDot x).1)
    (fun x hx n w v hv hvx => by
      simpa using removeStep_apply known hv (List.mem_of_mem_filter hx) hvx n _)
    (hnd.filter _) 0 w₁ _ h₁ (fun _ _ => rfl)
  have hcount : ((ns.filter isLogName).filter fun x => !known.contains (splitDot x).1).length =
      (ns.filter (orphanLog known)).length := by
    rw [List.filter_filter]
    exact congrArg List.length (List.filter_congr fun x _ => Bool.and_comm _ _)
  refine ⟨w₂, ?_, h₂.congr fun x hx => ?_, hr₁.confined.trans hr₂⟩
  · unfold maintain
    rw [bind_apply_ok hc, bind_apply_ok (logs_apply hls₁ h₁), List.foldlM_map, bind_apply_ok hf,
      Nat.zero_add, hcount]
    rfl
  · simp only [List.mem_filter, hx, true_and, orphanLog]
    rcases Bool.eq_false_or_eq_true (isLogName x) with hl | hl <;>
      rcases Bool.eq_false_or_eq_true (known.contains (splitDot x).1) with hk | hk <;>
      simp only [hl, hk, Bool.true_and, Bool.false_and, Bool.not_true, Bool.not_false,
        Bool.false_eq_true, if_true, if_false]

theorem orphanLog_log {known : List String} {id : String} (hid : id ∈ known) :
    orphanLog known (id ++ ".log") = false := by
  by_cases he : id = ""
  · have hlog : isLogName ".log" = false := by decide
    simp [orphanLog, he, hlog]
  · simp [orphanLog, Path.splitDot_log he, hid]

/-- **Log upkeep.** In a log directory that stands and holds distinct files, the check cuts every
log over the size limit to its last `keepBytes` bytes (all of it when it has fewer), leaves
every other file and every path outside the directory as it was, and answers the number of logs
over the limit. The full pass does the same, then removes exactly the logs whose stem names no
known session, answers how many it removed, and keeps the log of every known session whose id
has no slash, there or not as it was. -/
theorem log_upkeep_cuts_and_prunes (d : Folder) (cfg : LogConfig) (known : List String)
    {w : World} {ns : List String} {b : String → ByteArray}
    (hls : w.files.list d.path = .ok ns) (hnd : ns.Nodup)
    (h : d.Holds w.files ns fun x => some (b x)) :
    (∃ w', (⟨d.path, cfg⟩ : PaneLogs).check w =
        .ok (ns.filter fun x => isLogName x && cfg.maxBytes < (b x).size).length w' ∧
      d.Holds w'.files ns (fun x => some (checked cfg b x)) ∧ d.Confined ns w.files w'.files) ∧
    ∃ w', (⟨d.path, cfg⟩ : PaneLogs).maintain known w =
        .ok ⟨(ns.filter fun x => isLogName x && cfg.maxBytes < (b x).size).length,
          (ns.filter (orphanLog known)).length⟩ w' ∧
      d.Holds w'.files ns (fun x => if orphanLog known x then none else some (checked cfg b x)) ∧
      d.Confined ns w.files w'.files ∧
      ∀ id ∈ known, '/' ∉ id.toList →
        (w'.files.get? ((⟨d.path, cfg⟩ : PaneLogs).logPath id)).isSome =
          (w.files.get? ((⟨d.path, cfg⟩ : PaneLogs).logPath id)).isSome := by
  obtain ⟨w₁, hc, h₁, hr₁⟩ := check_apply cfg hls hnd h
  obtain ⟨w', hm, h', hr⟩ := maintain_apply cfg known hls hnd h
  refine ⟨⟨w₁, hc, h₁, hr₁.confined⟩, w', hm, h', hr, fun id hid hslash => ?_⟩
  have hp := Path.plain_log hslash
  rw [logPath, d.join_path hp]
  by_cases hmem : id ++ ".log" ∈ ns
  · -- a log of the directory: it was a file, and it is one still
    have hafter := h'.stores _ hmem
    have hbefore := h.stores _ hmem
    simp only [orphanLog_log hid, Bool.false_eq_true, if_false, Files.Stores] at hafter hbefore
    obtain ⟨m, t, ha⟩ := hafter
    obtain ⟨m', t', hb⟩ := hbefore
    rw [ha, hb]
    rfl
  · -- no file of the directory: nothing there changed
    rw [hr _ fun y hy => ⟨d.file_ne fun he => hmem (by rw [he]; exact hy),
      not_under_sibling d.names hp y⟩]

/-! ### A log directory -/

/-- The log directory `/logs`. -/
def logsFolder : Folder :=
  ⟨["logs"], fun n hn => by
    rw [List.mem_singleton.mp hn]
    exact ⟨by decide, by decide, by decide, by decide⟩⟩

/-- What its files hold: the log of the session `a`, ten bytes long, and a note beside it. -/
def logBytes (x : String) : ByteArray := if x = "a.log" then "0123456789".toUTF8 else "hello".toUTF8

/-- A world whose only directory is `/logs`, holding `a.log` and `notes.txt`. -/
def logWorld : World :=
  { files := { entries := [("/logs", .dir 0), ("/logs/a.log", .file (logBytes "a.log") 0o644 0),
      ("/logs/notes.txt", .file (logBytes "notes.txt") 0o644 0)] } }

theorem logWorld_list : logWorld.files.list logsFolder.path = .ok ["a.log", "notes.txt"] := by
  have hs : logWorld.files.stat logsFolder.path = .ok (.dir 0) := rfl
  simp only [Files.list, hs]
  rw [List.mergeSort_of_pairwise]
  · rfl
  · decide +kernel

theorem logWorld_holds :
    logsFolder.Holds logWorld.files ["a.log", "notes.txt"] fun x => some (logBytes x) where
  plain x hx := by
    simp only [List.mem_cons, List.not_mem_nil, or_false] at hx
    rcases hx with rfl | rfl <;> exact ⟨by decide, by decide, by decide, by decide⟩
  dir := ⟨0, rfl⟩
  stores x hx := by
    simp only [List.mem_cons, List.not_mem_nil, or_false] at hx
    rcases hx with rfl | rfl <;> exact ⟨0o644, 0, rfl⟩

/-- A check with a limit of five bytes and a tail of three, and a full pass that knows the
session `a`, on the log directory: the hypotheses hold there. -/
theorem upkeep_of_one_log :
    logWorld.files.list logsFolder.path = .ok ["a.log", "notes.txt"] ∧
    ["a.log", "notes.txt"].Nodup ∧
    logsFolder.Holds logWorld.files ["a.log", "notes.txt"] (fun x => some (logBytes x)) ∧
    ((∃ w', (⟨logsFolder.path, { maxBytes := 5, keepBytes := 3 }⟩ : PaneLogs).check logWorld =
        .ok (["a.log", "notes.txt"].filter fun x =>
          isLogName x && ({ maxBytes := 5, keepBytes := 3 } : LogConfig).maxBytes < (logBytes x).size).length w' ∧
      logsFolder.Holds w'.files ["a.log", "notes.txt"]
        (fun x => some (checked { maxBytes := 5, keepBytes := 3 } logBytes x)) ∧
      logsFolder.Confined ["a.log", "notes.txt"] logWorld.files w'.files) ∧
    ∃ w', (⟨logsFolder.path, { maxBytes := 5, keepBytes := 3 }⟩ : PaneLogs).maintain ["a"] logWorld =
        .ok ⟨(["a.log", "notes.txt"].filter fun x =>
            isLogName x && ({ maxBytes := 5, keepBytes := 3 } : LogConfig).maxBytes < (logBytes x).size).length,
          (["a.log", "notes.txt"].filter (orphanLog ["a"])).length⟩ w' ∧
      logsFolder.Holds w'.files ["a.log", "notes.txt"] (fun x =>
        if orphanLog ["a"] x then none else some (checked { maxBytes := 5, keepBytes := 3 } logBytes x)) ∧
      logsFolder.Confined ["a.log", "notes.txt"] logWorld.files w'.files ∧
      ∀ id ∈ ["a"], '/' ∉ id.toList →
        (w'.files.get? ((⟨logsFolder.path, { maxBytes := 5, keepBytes := 3 }⟩ : PaneLogs).logPath id)).isSome =
          (logWorld.files.get? ((⟨logsFolder.path, { maxBytes := 5, keepBytes := 3 }⟩ : PaneLogs).logPath id)).isSome) :=
  ⟨logWorld_list, by decide, logWorld_holds,
    log_upkeep_cuts_and_prunes logsFolder { maxBytes := 5, keepBytes := 3 } ["a"] logWorld_list
      (by decide) logWorld_holds⟩

/-- A check with a limit of five bytes and a tail of a hundred: the log of ten bytes is over the
limit and within the tail. The check counts it as cut, yet it holds all ten bytes it held. -/
theorem check_counts_log_kept_whole :
    ∃ w', (⟨logsFolder.path, { maxBytes := 5, keepBytes := 100 }⟩ : PaneLogs).check logWorld =
        .ok 1 w' ∧
      ∃ m t, w'.files.get? "/logs/a.log" = some (.file (logBytes "a.log") m t) := by
  obtain ⟨w', hc, h', -⟩ := check_apply { maxBytes := 5, keepBytes := 100 } logWorld_list
    (by decide) logWorld_holds
  have hcount : (["a.log", "notes.txt"].filter fun x =>
      isLogName x && ({ maxBytes := 5, keepBytes := 100 } : LogConfig).maxBytes < (logBytes x).size).length = 1 := by
    decide +kernel
  have hkept : checked { maxBytes := 5, keepBytes := 100 } logBytes "a.log" = logBytes "a.log" := by
    decide +kernel
  refine ⟨w', hcount ▸ hc, ?_⟩
  have ha := h'.stores "a.log" (by decide)
  rw [hkept] at ha
  exact ha

/-- The full pass that knows the session `../logs/a`, whose log is `/logs/a.log`: the stem of that
log is `a`, no known session, so the pass removes it. -/
theorem maintain_removes_log_of_known_session :
    logWorld.files.locate "/" ((⟨logsFolder.path, {}⟩ : PaneLogs).logPath "../logs/a") =
        .ok "/logs/a.log" ∧
      ∃ w', (⟨logsFolder.path, {}⟩ : PaneLogs).maintain ["../logs/a"] logWorld = .ok ⟨0, 1⟩ w' ∧
        w'.files.get? "/logs/a.log" = none := by
  obtain ⟨w', hm, h', -⟩ := maintain_apply {} ["../logs/a"] logWorld_list (by decide)
    logWorld_holds
  have hcut : (["a.log", "notes.txt"].filter fun x =>
      isLogName x && ({} : LogConfig).maxBytes < (logBytes x).size).length = 0 := by
    decide +kernel
  have hremoved : (["a.log", "notes.txt"].filter (orphanLog ["../logs/a"])).length = 1 := by
    decide +kernel
  have horphan : orphanLog ["../logs/a"] "a.log" = true := by decide +kernel
  refine ⟨by decide +kernel, w', hcut ▸ hremoved ▸ hm, ?_⟩
  have ha := h'.stores "a.log" (by decide)
  simp only [horphan, if_true, Files.Stores] at ha
  exact ha

end PaneLogs

end AgentDeck
