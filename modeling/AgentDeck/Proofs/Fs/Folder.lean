import Mathlib
import AgentDeck.Proofs.Fs.Frame

/-!
The files of one directory seen as slots: which of a few names hold which bytes.

Each file action on names of the directory is a change of slots (a rename moves one slot to
another, a copy duplicates one, a write fills one), and it succeeds whenever the directory
stands and the slots it reads are filled. A change confined to some names keeps the
directory and the slots of all other names as they were (`Holds.frame`), which is all the
single operations below need to know about what they leave alone.
-/

namespace AgentDeck.Fs

open AgentDeck.Path

namespace Files

/-- What stands at `p` is a file holding `b`, or nothing at all when `b` is `none`. -/
def Stores (fs : Files) (p : String) : Option ByteArray → Prop
  | none => fs.get? p = none
  | some b => ∃ m t, fs.get? p = some (.file b m t)

variable {fs fs' : Files} {p : String}

theorem stores_congr (h : fs'.get? p = fs.get? p) (b : Option ByteArray) :
    fs'.Stores p b ↔ fs.Stores p b := by
  cases b <;> simp [Stores, h]

theorem Stores.not_dir {b : Option ByteArray} (h : fs.Stores p b) (t : Nat) :
    fs.get? p ≠ some (.dir t) := by
  cases b with
  | none => simp [Stores] at h; simp [h]
  | some b =>
    obtain ⟨m, t', h⟩ := h
    simp [h]

end Files

/-- A directory named from the root by plain names. -/
structure Folder where
  names : List String
  plain : ∀ n ∈ names, Plain n

namespace Folder

variable (d : Folder)

/-- The directory's own path. -/
def path : String := ofNames d.names

/-- The path of the entry named `x` in the directory. -/
def file (x : String) : String := ofNames (d.names ++ [x])

theorem file_ne {x y : String} (h : x ≠ y) : d.file x ≠ d.file y := by
  obtain ⟨p, hp⟩ := toList_ofNames_file d.names
  intro hxy
  have hl := congrArg String.toList hxy
  rw [file, file, hp, hp] at hl
  exact h (String.toList_inj.mp (List.append_cancel_left hl))

theorem length_path_lt {x : String} (hx : x ≠ "") : d.path.length < (d.file x).length :=
  length_ofNames_lt d.names hx

theorem file_ne_root {x : String} (hx : x ≠ "") : d.file x ≠ "/" := by
  intro h
  have hlt := d.length_path_lt hx
  rw [h] at hlt
  have h1 : ("/" : String).length = 1 := rfl
  have hpos : 1 ≤ d.path.length := by
    rw [← String.length_toList, path, toList_ofNames]
    simp
  omega

theorem length_take_le (j : Nat) : (ofNames (d.names.take j)).length ≤ d.path.length := by
  have hpre := ofNames_isPrefix_append (d.names.take j) (d.names.drop j)
  rw [List.take_append_drop] at hpre
  rw [← String.length_toList, ← String.length_toList]
  exact hpre.length_le

theorem file_ne_take {x : String} (hx : x ≠ "") (j : Nat) : d.file x ≠ ofNames (d.names.take j) := by
  intro h
  have hlt := d.length_path_lt hx
  have hle := d.length_take_le j
  rw [← h] at hle
  omega

theorem length_lt_of_mem_ancestors {a : String} (ha : a ∈ ancestors d.path) :
    a.length < d.path.length := by
  rcases List.eq_nil_or_concat' d.names with h | ⟨ms, m, h⟩
  · have hroot : ancestors (ofNames []) = [] := rfl
    rw [path, h, hroot] at ha
    exact absurd ha List.not_mem_nil
  · have hms : ∀ n ∈ ms, Plain n := fun n hn => d.plain n (by simp [h, hn])
    have hm : Plain m := d.plain m (by simp [h])
    rw [path, h, ancestors_ofNames hms hm] at ha
    obtain ⟨i, hi, rfl⟩ := List.mem_map.mp ha
    have hpre : (ofNames (ms.take (i + 1))).toList <+: (ofNames ms).toList := by
      have := ofNames_isPrefix_append (ms.take (i + 1)) (ms.drop (i + 1))
      rwa [List.take_append_drop] at this
    calc (ofNames (ms.take (i + 1))).length
        ≤ (ofNames ms).length := by
          rw [← String.length_toList, ← String.length_toList]
          exact hpre.length_le
      _ < (ofNames (ms ++ [m])).length := length_ofNames_lt ms hm.ne_empty
      _ = d.path.length := by rw [path, h]

theorem reach_file {fs : Files} {t : Nat} (hd : fs.stat d.path = .ok (.dir t)) {x : String}
    (hx : Plain x) : fs.reach (d.file x) = .ok () := by
  obtain ⟨hreach, hget⟩ := (fs.stat_eq_ok).mp hd
  rw [Files.reach_eq_ok] at hreach ⊢
  rw [file, ancestors_ofNames d.plain hx]
  intro a ha
  obtain ⟨i, hi, rfl⟩ := List.mem_map.mp ha
  rw [List.mem_range] at hi
  rcases Nat.lt_or_ge (i + 1) d.names.length with hlt | hge
  · -- a directory strictly above the folder, already reached on the way to it
    obtain ⟨ms, m, h⟩ : ∃ ms m, d.names = ms ++ [m] := by
      rcases List.eq_nil_or_concat' d.names with h | ⟨ms, m, h⟩
      · simp [h] at hi
      · exact ⟨ms, m, h⟩
    have hms : ∀ n ∈ ms, Plain n := fun n hn => d.plain n (by simp [h, hn])
    have hm : Plain m := d.plain m (by simp [h])
    apply hreach
    rw [path, h, ancestors_ofNames hms hm, List.take_append_of_le_length (by simp [h] at hlt; omega)]
    exact List.mem_map.mpr ⟨i, List.mem_range.mpr (by simp [h] at hlt; omega), rfl⟩
  · -- the folder itself
    rw [List.take_of_length_le hge]
    exact ⟨t, hget⟩

/-- Making the directories down to a standing folder changes nothing. -/
theorem mkdirChain_path {fs : Files} {t : Nat} (hd : fs.stat d.path = .ok (.dir t))
    (cwd : String) : fs.mkdirChain cwd (components d.path).reverse = .ok fs := by
  obtain ⟨hreach, hget⟩ := (fs.stat_eq_ok).mp hd
  have hc : components d.path = .root :: d.names.map .name := components_ofNames d.plain
  obtain ⟨c, up, hcu⟩ : ∃ c up, (components d.path).reverse = c :: up := by
    rw [hc, List.reverse_cons]
    rcases h : (d.names.map Component.name).reverse with _ | ⟨c, up⟩
    · exact ⟨.root, [], rfl⟩
    · exact ⟨c, up ++ [.root], rfl⟩
  have hrev : (c :: up).reverse = .root :: d.names.map .name := by
    rw [← hcu, List.reverse_reverse, hc]
  rw [hcu]
  refine Files.mkdirChain_of_dir ?_ hreach hget
  rw [hrev, Files.ofComponents_names]
  exact fs.locate_ofNames d.plain cwd

/-- The directory stands, and the file named `x`, for each `x` of the plain names `N`, holds
`v x`. -/
structure Holds (fs : Files) (N : List String) (v : String → Option ByteArray) : Prop where
  plain : ∀ x ∈ N, Plain x
  dir : ∃ t, fs.stat d.path = .ok (.dir t)
  stores : ∀ x ∈ N, fs.Stores (d.file x) (v x)

variable {d} {fs fs' : Files} {N T : List String} {v v' : String → Option ByteArray}

theorem Holds.congr (h : d.Holds fs N v) (hv : ∀ x ∈ N, v' x = v x) : d.Holds fs N v' :=
  ⟨h.plain, h.dir, fun x hx => hv x hx ▸ h.stores x hx⟩

theorem Holds.reach (h : d.Holds fs N v) {x : String} (hx : Plain x) :
    fs.reach (d.file x) = .ok () := by
  obtain ⟨t, ht⟩ := h.dir
  exact d.reach_file ht hx

theorem Holds.stat_file (h : d.Holds fs N v) {x : String} (hx : x ∈ N) {b : ByteArray}
    (hb : v x = some b) : ∃ m t, fs.stat (d.file x) = .ok (.file b m t) := by
  have hs := h.stores x hx
  rw [hb] at hs
  obtain ⟨m, t, hg⟩ := hs
  exact ⟨m, t, (fs.stat_eq_ok).mpr ⟨h.reach (h.plain x hx), hg⟩⟩

/-- Whether something stands at a slot's file is whether the slot is filled. -/
theorem Holds.stat_isSome (h : d.Holds fs N v) {x : String} (hx : x ∈ N) :
    (fs.stat (d.file x)).toOption.isSome = (v x).isSome := by
  cases hb : v x with
  | some b =>
    obtain ⟨m, t, hs⟩ := h.stat_file hx hb
    simp [hs, Except.toOption]
  | none =>
    have hg : fs.get? (d.file x) = none := by simpa [hb, Files.Stores] using h.stores x hx
    cases hs : fs.stat (d.file x) with
    | error f => rfl
    | ok e => simp [(fs.stat_eq_ok).mp hs |>.2] at hg

/-- **Frame.** A change that leaves every path outside the entries named in `T` (and what
lies under them) alone keeps the directory standing and every other slot as it was. -/
theorem Holds.frame (h : d.Holds fs N v) (hT : ∀ y ∈ T, y ≠ "")
    (hq : ∀ q, (∀ y ∈ T, q ≠ d.file y ∧ ¬Under (d.file y) q) → fs'.get? q = fs.get? q)
    (hv : ∀ x ∈ N, x ∉ T → v' x = v x) (hs : ∀ y ∈ T, y ∈ N → fs'.Stores (d.file y) (v' y)) :
    d.Holds fs' N v' := by
  -- every directory on the way to the folder is shorter than the files that change
  have hshort : ∀ a : String, a.length ≤ d.path.length → fs'.get? a = fs.get? a := by
    intro a ha
    apply hq
    intro y hy
    have hlt := d.length_path_lt (hT y hy)
    refine ⟨fun he => ?_, not_under_longer (by omega)⟩
    rw [he] at ha
    omega
  refine ⟨h.plain, ?_, ?_⟩
  · obtain ⟨t, ht⟩ := h.dir
    obtain ⟨hreach, hget⟩ := (fs.stat_eq_ok).mp ht
    refine ⟨t, (fs'.stat_eq_ok).mpr ⟨?_, ?_⟩⟩
    · rw [Files.reach_congr _ fun a ha => hshort a (d.length_lt_of_mem_ancestors ha).le]
      exact hreach
    · rw [hshort _ (Nat.le_refl _)]
      exact hget
  · intro x hx
    by_cases hxT : x ∈ T
    · exact hs x hxT hx
    · rw [hv x hx hxT, Files.stores_congr]
      · exact h.stores x hx
      · apply hq
        intro y hy
        have hxy : x ≠ y := fun he => hxT (he ▸ hy)
        exact ⟨d.file_ne hxy, not_under_sibling d.names (h.plain x hx) y⟩

/-! ### The file actions as changes of slots -/

/-- Moving a filled slot to another name fills that one and empties the first. -/
theorem Holds.rename (h : d.Holds fs N v) {x y : String} (hx : x ∈ N) (hy : y ∈ N)
    (hxy : x ≠ y) {b : ByteArray} (hb : v x = some b) :
    ∃ fs', fs.rename (d.file x) (d.file y) = .ok fs' ∧
      d.Holds fs' N (Function.update (Function.update v x none) y (some b)) := by
  have hpx := h.plain x hx
  have hpy := h.plain y hy
  obtain ⟨m, t, hst⟩ := h.stat_file hx hb
  obtain ⟨fs', hr⟩ := Files.rename_ok hst (h.reach hpy) (h.stores y hy).not_dir
  obtain ⟨hdst, hsrc, hother⟩ := Files.get?_rename hr (d.file_ne hxy)
    (d.file_ne_root hpx.ne_empty) (d.file_ne_root hpy.ne_empty)
  have hgx : fs.get? (d.file x) = some (.file b m t) := ((fs.stat_eq_ok).mp hst).2
  refine ⟨fs', hr, h.frame (T := [x, y]) (by simp [hpx.ne_empty, hpy.ne_empty]) ?_ ?_ ?_⟩
  · intro q hq
    simp only [List.mem_cons, List.not_mem_nil, or_false, forall_eq_or_imp, forall_eq] at hq
    exact hother q hq.1.1 hq.2.1 hq.1.2 hq.2.2
  · intro z _ hz
    simp only [List.mem_cons, List.not_mem_nil, or_false, not_or] at hz
    simp [Function.update, hz.1, hz.2]
  · intro z hz _
    simp only [List.mem_cons, List.not_mem_nil, or_false] at hz
    rcases hz with rfl | rfl
    · simp only [Function.update_of_ne hxy, Function.update_self, Files.Stores]
      exact hsrc (not_under_sibling d.names hpx y)
    · simp only [Function.update_self, Files.Stores]
      exact ⟨m, t, hdst.trans hgx⟩

/-- Removing the file of a filled slot empties it. -/
theorem Holds.removeFile (h : d.Holds fs N v) {x : String} (hx : x ∈ N) {b : ByteArray}
    (hb : v x = some b) :
    ∃ fs', fs.removeFile (d.file x) = .ok fs' ∧ d.Holds fs' N (Function.update v x none) := by
  have hpx := h.plain x hx
  obtain ⟨m, t, hst⟩ := h.stat_file hx hb
  have hr := Files.removeFile_of_file hst
  refine ⟨_, hr, h.frame (T := [x]) (by simp [hpx.ne_empty]) ?_ ?_ ?_⟩
  · intro q hq
    simp only [List.mem_cons, List.not_mem_nil, or_false, forall_eq] at hq
    exact Files.get?_removeFile hr hq.1 hq.2
  · intro z _ hz
    simp only [List.mem_cons, List.not_mem_nil, or_false] at hz
    simp [Function.update, hz]
  · intro z hz _
    simp only [List.mem_cons, List.not_mem_nil, or_false] at hz
    subst hz
    simp only [Function.update_self, Files.Stores, Files.get?_clock]
    exact Files.get?_drop_self _ (d.file_ne_root hpx.ne_empty)

/-- Copying a filled slot to another name fills that one with the same bytes. -/
theorem Holds.copy (h : d.Holds fs N v) {x y : String} (hx : x ∈ N) (hy : y ∈ N)
    {b : ByteArray} (hb : v x = some b) :
    ∃ fs', fs.copy (d.file x) (d.file y) = .ok fs' ∧
      d.Holds fs' N (Function.update v y (some b)) := by
  have hpy := h.plain y hy
  obtain ⟨m, t, hst⟩ := h.stat_file hx hb
  have hc := Files.copy_of_file hst (h.reach hpy) (h.stores y hy).not_dir
  refine ⟨_, hc, h.frame (T := [y]) (by simp [hpy.ne_empty]) ?_ ?_ ?_⟩
  · intro q hq
    simp only [List.mem_cons, List.not_mem_nil, or_false, forall_eq] at hq
    exact Files.get?_copy hc hq.1
  · intro z _ hz
    simp only [List.mem_cons, List.not_mem_nil, or_false] at hz
    simp [Function.update, hz]
  · intro z hz _
    simp only [List.mem_cons, List.not_mem_nil, or_false] at hz
    subst hz
    simp only [Function.update_self, Files.Stores]
    exact ⟨m, fs.clock, Files.get?_put_self _ (d.file_ne_root hpy.ne_empty) _⟩

/-- Writing bytes to a slot's file fills the slot with them. -/
theorem Holds.write (h : d.Holds fs N v) {y : String} (hy : y ∈ N) (data : ByteArray) :
    ∃ fs', fs.write (d.file y) data = .ok fs' ∧
      d.Holds fs' N (Function.update v y (some data)) := by
  have hpy := h.plain y hy
  -- what stood there decides the permission bits of the new file
  obtain ⟨m, hw⟩ : ∃ m, fs.write (d.file y) data = .ok (fs.put (d.file y) (.file data m fs.clock)) := by
    have hs := h.stores y hy
    cases hv : v y with
    | none =>
      rw [hv] at hs
      exact ⟨_, Files.write_of_none (h.reach hpy) hs data⟩
    | some b =>
      rw [hv] at hs
      obtain ⟨m, t, hg⟩ := hs
      exact ⟨_, Files.write_of_file (h.reach hpy) hg data⟩
  refine ⟨_, hw, h.frame (T := [y]) (by simp [hpy.ne_empty]) ?_ ?_ ?_⟩
  · intro q hq
    simp only [List.mem_cons, List.not_mem_nil, or_false, forall_eq] at hq
    exact Files.get?_put_of_ne _ hq.1 _
  · intro z _ hz
    simp only [List.mem_cons, List.not_mem_nil, or_false] at hz
    simp [Function.update, hz]
  · intro z hz _
    simp only [List.mem_cons, List.not_mem_nil, or_false] at hz
    subst hz
    simp only [Function.update_self, Files.Stores]
    exact ⟨m, fs.clock, Files.get?_put_self _ (d.file_ne_root hpy.ne_empty) _⟩

/-- Touching a file of another name keeps every slot. -/
theorem Holds.touch (h : d.Holds fs N v) {z : String} (hz : Plain z) (hzN : z ∉ N)
    (ht : fs.touch (d.file z) = .ok fs') : d.Holds fs' N v :=
  h.frame (T := [z]) (by simp [hz.ne_empty])
    (fun q hq => Files.get?_touch ht (hq z (by simp)).1)
    (fun _ _ _ => rfl) (fun y hy hyN => by simp at hy; exact absurd (hy ▸ hyN) hzN)

end Folder

end AgentDeck.Fs
