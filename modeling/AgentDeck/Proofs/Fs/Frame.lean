import Mathlib
import AgentDeck.Proofs.Cache.Flat
import AgentDeck.Proofs.Fs.Names

/-!
What each change of a file system leaves as it was.

Putting an entry changes what stands at its path only; dropping a path removes it and what
stands under it; a rename moves an entry from one path to another and leaves every path
outside both subtrees alone. Whether the directories above a path exist is read from those
directories alone. These frame laws, with the success conditions of each operation, are what
the registry's writes are proved from.
-/

namespace AgentDeck.Fs

/-- The bytes of a file; a directory has none. -/
def Entry.data? : Entry → Option ByteArray
  | .file data _ _ => some data
  | .dir _ => none

/-- `q` stands under `p`, somewhere below it in the tree. -/
def Under (p q : String) : Prop := (p ++ "/").toList <+: q.toList

theorem Under.ne {p q : String} (h : Under p q) : q ≠ p := by
  rintro rfl
  exact Path.not_under_longer (Nat.le_refl _) h

/-! ### Tables of entries -/

section Table

variable (l : List (String × Entry)) (p q : String)

theorem lookup_replace (e : Entry) :
    (l.map fun (k, v) => if k == p then (k, e) else (k, v)).lookup q =
      if q = p then (l.lookup p).map fun _ => e else l.lookup q := by
  induction l with
  | nil => simp
  | cons kv l ih =>
    obtain ⟨k, v⟩ := kv
    by_cases hk : k = p
    · subst hk
      by_cases hq : q = k
      · subst hq
        simp
      · simp only [beq_self_eq_true, ite_true, List.map_cons]
        rw [lookup_cons_of_ne _ _ hq, ih, if_neg hq, if_neg hq, lookup_cons_of_ne _ _ hq]
    · have hkp : (k == p) = false := beq_eq_false_iff_ne.mpr hk
      simp only [List.map_cons, hkp, Bool.false_eq_true, ite_false]
      by_cases hq : q = k
      · subst hq
        simp [hk]
      · rw [lookup_cons_of_ne _ _ hq, ih, lookup_cons_of_ne _ _ hq]
        by_cases hqp : q = p
        · subst hqp
          rw [if_pos rfl, if_pos rfl, lookup_cons_of_ne _ _ hq]
        · rw [if_neg hqp, if_neg hqp]

theorem lookup_filter_keep {f : String × Entry → Bool} (hf : ∀ v, f (q, v) = true) :
    (l.filter f).lookup q = l.lookup q := by
  induction l with
  | nil => rfl
  | cons kv l ih =>
    obtain ⟨k, v⟩ := kv
    by_cases hq : q = k
    · subst hq
      simp [hf v]
    · rw [lookup_cons_of_ne _ _ hq]
      by_cases hfk : f (k, v) = true
      · rw [List.filter_cons_of_pos hfk, lookup_cons_of_ne _ _ hq, ih]
      · rw [List.filter_cons_of_neg hfk, ih]

theorem lookup_filter_drop {f : String × Entry → Bool} (hf : ∀ v, f (q, v) = false) :
    (l.filter f).lookup q = none := by
  rw [lookup_eq_none_iff]
  intro hq
  obtain ⟨⟨k, v⟩, hkv, rfl⟩ := List.mem_map.mp hq
  have := (List.mem_filter.mp hkv).2
  rw [hf v] at this
  exact Bool.false_ne_true this

theorem lookup_filterMap_move {g : String × Entry → Option (String × Entry)} {src dst : String}
    (hsrc : ∀ v, g (src, v) = some (dst, v))
    (hother : ∀ k v kv, k ≠ src → g (k, v) = some kv → kv.1 ≠ dst) :
    (l.filterMap g).lookup dst = l.lookup src := by
  induction l with
  | nil => rfl
  | cons kv l ih =>
    obtain ⟨k, v⟩ := kv
    by_cases hk : k = src
    · subst hk
      simp [hsrc v]
    · rw [List.filterMap_cons, lookup_cons_of_ne _ _ (Ne.symm hk)]
      rcases hg : g (k, v) with _ | kv'
      · exact ih
      · rw [lookup_cons_of_ne _ _ (hother k v kv' hk hg).symm, ih]

theorem lookup_filterMap_none {g : String × Entry → Option (String × Entry)}
    (hq : ∀ k v kv, g (k, v) = some kv → kv.1 ≠ q) : (l.filterMap g).lookup q = none := by
  rw [lookup_eq_none_iff]
  intro hmem
  obtain ⟨kv, hkv, hkey⟩ := List.mem_map.mp hmem
  obtain ⟨⟨k, v⟩, -, hg⟩ := List.mem_filterMap.mp hkv
  exact hq k v kv hg hkey

end Table

namespace Files

variable (fs : Files) {p q : String}

theorem get?_eq_lookup (hq : q ≠ "/") : fs.get? q = fs.entries.lookup q := by
  simp [get?, hq]

/-! ### Putting and dropping -/

theorem get?_put_self (hp : p ≠ "/") (e : Entry) : (fs.put p e).get? p = some e := by
  rw [get?_eq_lookup _ hp]
  unfold put
  split
  · next h =>
    rw [lookup_replace, if_pos rfl]
    obtain ⟨v, hv⟩ := Option.isSome_iff_exists.mp h
    rw [hv]
    rfl
  · next h =>
    rw [lookup_append, Option.not_isSome_iff_eq_none.mp h]
    simp

theorem get?_put_of_ne (hq : q ≠ p) (e : Entry) : (fs.put p e).get? q = fs.get? q := by
  by_cases hr : q = "/"
  · subst hr
    rfl
  rw [get?_eq_lookup _ hr, get?_eq_lookup _ hr]
  unfold put
  split
  · rw [lookup_replace, if_neg hq]
  · rw [lookup_append, lookup_cons_of_ne _ _ hq]
    simp

theorem get?_drop_self (hp : p ≠ "/") : (fs.drop p).get? p = none := by
  rw [get?_eq_lookup _ hp]
  exact lookup_filter_drop _ _ fun _ => by simp

theorem get?_drop_of_ne (hq : q ≠ p) (hu : ¬Under p q) : (fs.drop p).get? q = fs.get? q := by
  by_cases hr : q = "/"
  · subst hr
    rfl
  rw [get?_eq_lookup _ hr, get?_eq_lookup _ hr]
  refine lookup_filter_keep _ _ fun _ => ?_
  simp only [bne_iff_ne, ne_eq, hq, not_false_eq_true, Bool.and_eq_true,
    Bool.not_eq_true', true_and]
  rw [Bool.eq_false_iff]
  exact fun h => hu (List.isPrefixOf_iff_prefix.mp h)

/-! ### The directories above a path -/

theorem reach_eq_ok : fs.reach p = .ok () ↔ ∀ a ∈ ancestors p, ∃ t, fs.get? a = some (.dir t) := by
  unfold reach
  induction ancestors p with
  | nil => simp only [List.forM, List.not_mem_nil, IsEmpty.forall_iff, implies_true, iff_true]; rfl
  | cons a as ih =>
    simp only [List.forM, List.forall_mem_cons, ← ih]
    rcases h : fs.get? a with _ | ⟨d, m, t⟩ | t
    · simp [bind, Except.bind]
    · simp [bind, Except.bind]
    · simp [bind, Except.bind]

theorem reach_congr {fs' : Files} (h : ∀ a ∈ ancestors p, fs'.get? a = fs.get? a) :
    fs'.reach p = fs.reach p := by
  unfold reach
  generalize ancestors p = as at h ⊢
  induction as with
  | nil => rfl
  | cons a as ih =>
    simp only [List.forM, h a List.mem_cons_self, ih fun b hb => h b (List.mem_cons_of_mem _ hb)]

theorem stat_eq_ok {e : Entry} : fs.stat p = .ok e ↔ fs.reach p = .ok () ∧ fs.get? p = some e := by
  unfold stat
  cases fs.reach p with
  | error f => simp [bind, Except.bind]
  | ok u =>
    cases fs.get? p with
    | none => simp [bind, Except.bind, throw, throwThe, MonadExceptOf.throw]
    | some e' => simp [bind, Except.bind, pure, Except.pure]

@[simp] theorem get?_clock (c : Nat) : ({ fs with clock := c } : Files).get? q = fs.get? q := rfl

/-! ### Writing, copying and removing files -/

variable {fs} {fs' : Files}

theorem write_of_none (hr : fs.reach p = .ok ()) (h : fs.get? p = none) (data : ByteArray) :
    fs.write p data = .ok (fs.put p (.file data fileMode fs.clock)) := by
  simp [write, hr, h, bind, Except.bind, pure, Except.pure]

theorem write_of_file (hr : fs.reach p = .ok ()) {d : ByteArray} {m t : Nat}
    (h : fs.get? p = some (.file d m t)) (data : ByteArray) :
    fs.write p data = .ok (fs.put p (.file data m fs.clock)) := by
  simp [write, hr, h, bind, Except.bind, pure, Except.pure]

/-- A write changes what stands at its own path only. -/
theorem get?_write {data : ByteArray} (h : fs.write p data = .ok fs') (hq : q ≠ p) :
    fs'.get? q = fs.get? q := by
  unfold write at h
  cases hr : fs.reach p with
  | error f => simp [hr, bind, Except.bind] at h
  | ok u =>
    rcases hp : fs.get? p with _ | ⟨d, m, t⟩ | t <;>
      simp [hr, hp, bind, Except.bind, pure, Except.pure, throw, throwThe,
        MonadExceptOf.throw] at h
    all_goals
      rw [← h]
      exact get?_put_of_ne _ hq _

theorem get?_touch (h : fs.touch p = .ok fs') (hq : q ≠ p) : fs'.get? q = fs.get? q := by
  unfold touch at h
  cases hr : fs.reach p with
  | error f => simp [hr, bind, Except.bind] at h
  | ok u =>
    rcases hp : fs.get? p with _ | ⟨d, m, t⟩ | t <;>
      simp [hr, hp, bind, Except.bind, pure, Except.pure, throw, throwThe,
        MonadExceptOf.throw] at h
    · rw [← h]
      exact get?_put_of_ne _ hq _
    · rw [← h]

theorem copy_of_file {src dst : String} {d : ByteArray} {m t : Nat}
    (hs : fs.stat src = .ok (.file d m t)) (hr : fs.reach dst = .ok ())
    (hd : ∀ t', fs.get? dst ≠ some (.dir t')) :
    fs.copy src dst = .ok (fs.put dst (.file d m fs.clock)) := by
  unfold copy
  rcases h : fs.get? dst with _ | ⟨d', m', t'⟩ | t'
  · simp [hs, hr, bind, Except.bind, pure, Except.pure]
  · simp [hs, hr, bind, Except.bind, pure, Except.pure]
  · exact absurd h (hd t')

/-- A copy changes what stands at its target only. -/
theorem get?_copy {src dst : String} (h : fs.copy src dst = .ok fs') (hq : q ≠ dst) :
    fs'.get? q = fs.get? q := by
  unfold copy at h
  cases hs : fs.stat src with
  | error f => simp [hs, bind, Except.bind] at h
  | ok e =>
    rcases e with ⟨d, m, t⟩ | t
    · cases hr : fs.reach dst with
      | error f => simp [hs, hr, bind, Except.bind] at h
      | ok u =>
        rcases hp : fs.get? dst with _ | ⟨d', m', t'⟩ | t' <;>
          simp [hs, hr, hp, bind, Except.bind, pure, Except.pure, throw, throwThe,
            MonadExceptOf.throw] at h
        all_goals
          rw [← h]
          exact get?_put_of_ne _ hq _
    · simp [hs, bind, Except.bind, throw, throwThe, MonadExceptOf.throw] at h

theorem removeFile_of_file {d : ByteArray} {m t : Nat} (hs : fs.stat p = .ok (.file d m t)) :
    fs.removeFile p = .ok { fs.drop p with clock := fs.clock + 1 } := by
  simp [removeFile, hs, bind, Except.bind, pure, Except.pure]

/-- Removing a file changes what stands at its path and under it only. -/
theorem get?_removeFile (h : fs.removeFile p = .ok fs') (hq : q ≠ p) (hu : ¬Under p q) :
    fs'.get? q = fs.get? q := by
  unfold removeFile at h
  cases hs : fs.stat p with
  | error f => simp [hs, bind, Except.bind] at h
  | ok e =>
    rcases e with ⟨d, m, t⟩ | t <;>
      simp [hs, bind, Except.bind, pure, Except.pure, throw, throwThe,
        MonadExceptOf.throw] at h
    rw [← h, get?_clock]
    exact get?_drop_of_ne _ hq hu

/-! ### Renaming -/

theorem under_moved {p q k : String} (hk : (p ++ "/").toList.isPrefixOf k.toList = true) :
    Under q (q ++ String.ofList (k.toList.drop p.length)) := by
  obtain ⟨rest, hrest⟩ := List.isPrefixOf_iff_prefix.mp hk
  have hdrop : k.toList.drop p.length = '/' :: rest := by
    rw [← hrest, String.toList_append, List.append_assoc, List.drop_left' (String.length_toList)]
    rfl
  refine ⟨rest, ?_⟩
  rw [hdrop]
  simp

theorem get?_moved (fs : Files) {src dst : String} (hne : src ≠ dst) (hs : src ≠ "/") (hd : dst ≠ "/")
    {g : String × Entry → Option (String × Entry)} (hsrc : ∀ v, g (src, v) = some (dst, v))
    (hkeys : ∀ k v kv, g (k, v) = some kv → (k = src ∧ kv.1 = dst) ∨ (k ≠ src ∧ Under dst kv.1))
    (c : Nat) :
    let fs' : Files := ⟨((fs.drop src).drop dst).entries ++ fs.entries.filterMap g, c⟩
    fs'.get? dst = fs.get? src ∧ (¬Under dst src → fs'.get? src = none) ∧
      ∀ q, q ≠ src → q ≠ dst → ¬Under src q → ¬Under dst q → fs'.get? q = fs.get? q := by
  intro fs'
  -- what the moved entries hold, read at one path
  have hmoved : ∀ q, q ≠ dst → ¬Under dst q → (fs.entries.filterMap g).lookup q = none :=
    fun q hq hu => lookup_filterMap_none _ _ fun k v kv hg hkey => by
      rcases hkeys k v kv hg with ⟨-, hk⟩ | ⟨-, hk⟩
      · exact hq (hkey ▸ hk)
      · exact hu (hkey ▸ hk)
  have hrest : ∀ q, q ≠ "/" → fs'.get? q =
      (((fs.drop src).drop dst).get? q).or ((fs.entries.filterMap g).lookup q) := fun q hq => by
    rw [get?_eq_lookup _ hq, get?_eq_lookup _ hq]
    exact lookup_append _ _ _
  refine ⟨?_, fun hu => ?_, fun q hqs hqd hus hud => ?_⟩
  · rw [hrest dst hd, get?_drop_self _ hd, Option.none_or, get?_eq_lookup _ hs]
    exact lookup_filterMap_move _ hsrc fun k v kv hk hg => by
      rcases hkeys k v kv hg with ⟨hk', -⟩ | ⟨-, hu⟩
      · exact absurd hk' hk
      · exact hu.ne
  · rw [hrest src hs, get?_drop_of_ne _ hne hu, get?_drop_self _ hs, Option.none_or]
    exact hmoved src hne hu
  · by_cases hq : q = "/"
    · subst hq
      rfl
    rw [hrest q hq, get?_drop_of_ne _ hqd hud, get?_drop_of_ne _ hqs hus, hmoved q hqd hud,
      Option.or_none]

/-- What a rename leaves: the entry of `src` at `dst`, nothing at `src` unless it stands under
`dst`, and every path outside both subtrees as it was. -/
theorem get?_rename {src dst : String} (h : fs.rename src dst = .ok fs') (hne : src ≠ dst)
    (hs : src ≠ "/") (hd : dst ≠ "/") :
    fs'.get? dst = fs.get? src ∧ (¬Under dst src → fs'.get? src = none) ∧
      ∀ q, q ≠ src → q ≠ dst → ¬Under src q → ¬Under dst q → fs'.get? q = fs.get? q := by
  -- every way the rename succeeds builds the same table
  have hmove := fun (c : Nat) => get?_moved fs hne hs hd
    (g := fun x => if (x.1 == src) = true then some (dst, x.2)
      else if (src ++ "/").toList.isPrefixOf x.1.toList = true then
        some (dst ++ String.ofList (List.drop src.length x.1.toList), x.2)
      else none)
    (fun v => by simp) (fun k v kv hg => by
      simp only at hg
      split at hg
      · next hk =>
        cases hg
        exact .inl ⟨beq_iff_eq.mp hk, rfl⟩
      · next hk =>
        split at hg
        · next hp =>
          cases hg
          exact .inr ⟨fun h => hk (beq_iff_eq.mpr h), under_moved hp⟩
        · cases hg) c
  unfold rename at h
  cases hst : fs.stat src with
  | error f => simp [hst, bind, Except.bind] at h
  | ok e =>
    cases hr : fs.reach dst with
    | error f => simp [hst, hr, bind, Except.bind] at h
    | ok u =>
      have hne' : (src == dst) = false := beq_eq_false_iff_ne.mpr hne
      simp only [hst, hr, hne', bind, Except.bind, Bool.false_eq_true, ite_false] at h
      split at h
      · simp [throw, throwThe, MonadExceptOf.throw] at h
      · simp [throw, throwThe, MonadExceptOf.throw] at h
      · cases hl : fs.list dst with
        | error f => simp [hl] at h
        | ok names =>
          simp only [hl] at h
          split at h
          · simp only [pure, Except.pure, Except.ok.injEq] at h
            subst h
            exact hmove _
          · simp [throw, throwThe, MonadExceptOf.throw] at h
      · simp only [pure, Except.pure, Except.ok.injEq] at h
        subst h
        exact hmove _

theorem rename_ok {src dst : String} {d : ByteArray} {m t : Nat}
    (hst : fs.stat src = .ok (.file d m t)) (hr : fs.reach dst = .ok ())
    (hd : ∀ t', fs.get? dst ≠ some (.dir t')) : ∃ fs', fs.rename src dst = .ok fs' := by
  unfold rename
  simp only [hst, hr, bind, Except.bind]
  split
  · exact ⟨_, rfl⟩
  · rcases h : fs.get? dst with _ | ⟨d', m', t'⟩ | t'
    · exact ⟨_, rfl⟩
    · exact ⟨_, rfl⟩
    · exact absurd h (hd t')

/-! ### Walking a path and making directories -/

theorem foldlM_names {f : List String → Path.Component → Except IoFault (List String)}
    (hn : ∀ acc s, f acc (.name s) = .ok (acc ++ [s])) :
    ∀ (ns acc : List String), (ns.map Path.Component.name).foldlM f acc = .ok (acc ++ ns)
  | [], acc => by simp; rfl
  | n :: ns, acc => by
    rw [List.map_cons, List.foldlM_cons, hn]
    simp only [bind, Except.bind]
    rw [foldlM_names hn ns (acc ++ [n])]
    simp

/-- Walking a path down plain names from anywhere gives the path itself. -/
theorem locate_ofNames {ns : List String} (hns : ∀ n ∈ ns, Path.Plain n) (cwd : String) :
    fs.locate cwd (Path.ofNames ns) = .ok (Path.ofNames ns) := by
  unfold locate
  dsimp only
  rw [if_pos (Path.isAbsolute_ofNames ns), Path.components_ofNames hns, List.foldlM_cons]
  simp only [pure, Except.pure, bind, Except.bind]
  rw [foldlM_names (fun _ _ => rfl) ns []]
  rfl

theorem ofComponents_names (ns : List String) :
    Path.ofComponents (.root :: ns.map .name) = Path.ofNames ns := by
  simp [Path.ofComponents, Path.ofNames, Function.comp_def, Path.Component.text]

/-- Making the directories down to one that exists changes nothing. -/
theorem mkdirChain_of_dir {cwd : String} {c : Path.Component} {up : List Path.Component}
    {d : String} (hl : fs.locate cwd (Path.ofComponents (c :: up).reverse) = .ok d)
    (hr : fs.reach d = .ok ()) {t : Nat} (hd : fs.get? d = some (.dir t)) :
    fs.mkdirChain cwd (c :: up) = .ok fs := by
  rw [List.reverse_cons] at hl
  have hmk : fs.mkdirAt cwd (Path.ofComponents (up.reverse ++ [c])) = .error IoFault.occupied := by
    simp [mkdirAt, mkdir, hl, hr, hd, bind, Except.bind, throw, throwThe, MonadExceptOf.throw]
  have hdir : fs.isDirAt cwd (Path.ofComponents (up.reverse ++ [c])) = true := by
    have hst : fs.stat d = .ok (.dir t) := (stat_eq_ok fs).mpr ⟨hr, hd⟩
    simp [isDirAt, hl, hst, bind, Except.bind, Entry.isDir]
  unfold mkdirChain
  simp only [List.reverse_cons]
  rw [hmk]
  simp only
  rw [if_neg (by decide), if_pos hdir]

/-- Making the directories of a path down plain names puts entries at those directories
only. -/
theorem get?_mkdirChain {cwd : String} :
    ∀ {cs : List Path.Component} {ks : List String} {fs fs' : Files},
      (∀ k ∈ ks, Path.Plain k) → cs.reverse = .root :: ks.map .name →
      fs.mkdirChain cwd cs = .ok fs' →
      ∀ q, (∀ j ≤ ks.length, q ≠ Path.ofNames (ks.take j)) → fs'.get? q = fs.get? q
  | [], _, _, _, _, hcs, _ => by simp at hcs
  | c :: up, ks, fs, fs', hks, hcs, h => by
    intro q hq
    have hp : Path.ofComponents (c :: up).reverse = Path.ofNames ks := by
      rw [hcs, ofComponents_names]
    have hl : ∀ fs₀ : Files, fs₀.locate cwd (Path.ofComponents (c :: up).reverse) =
        .ok (Path.ofNames ks) := fun fs₀ => by rw [hp]; exact fs₀.locate_ofNames hks cwd
    -- a directory made by one attempt stands at the path itself
    have hmade : ∀ (fs₀ made : Files), fs₀.mkdirAt cwd (Path.ofComponents (c :: up).reverse) =
        .ok made → made.get? q = fs₀.get? q := fun fs₀ made hm => by
      simp only [mkdirAt, hl fs₀, bind, Except.bind, mkdir] at hm
      cases hr : fs₀.reach (Path.ofNames ks) with
      | error f => simp [hr] at hm
      | ok u =>
        rcases hg : fs₀.get? (Path.ofNames ks) with _ | e <;>
          simp [hr, hg, pure, Except.pure, throw, throwThe, MonadExceptOf.throw] at hm
        rw [← hm]
        exact get?_put_of_ne _ (hq ks.length (Nat.le_refl _) |>.trans_eq (by simp)) _
    unfold mkdirChain at h
    simp only at h
    split at h
    · next made hm =>
      cases h
      exact hmade fs _ hm
    · split at h
      · split at h
        · next below hb =>
          -- the directories above are made first, then the path once more
          rcases List.eq_nil_or_concat' ks with rfl | ⟨ks', k, rfl⟩
          · have hup : up = [] := by
              simpa using congrArg List.length hcs
            subst hup
            simp [mkdirChain] at hb
            subst hb
            split at h
            · next made hm =>
              cases h
              exact hmade fs _ hm
            · split at h
              · cases h
                rfl
              · cases h
          · have hup : up.reverse = .root :: ks'.map .name := by
              rw [List.reverse_cons] at hcs
              simp only [List.map_append, List.map_cons, List.map_nil] at hcs
              rw [← List.cons_append] at hcs
              have hlen := congrArg List.length hcs
              simp only [List.length_append, List.length_reverse, List.length_cons,
                List.length_map, List.length_nil] at hlen
              exact (List.append_inj hcs (by simp; omega)).1
            have hbelow := get?_mkdirChain (fun k hk => hks k (by simp [hk])) hup hb q
              (fun j hj => by
                have := hq j (by simp; omega)
                rwa [List.take_append_of_le_length hj] at this)
            split at h
            · next made hm =>
              cases h
              exact (hmade below _ hm).trans hbelow
            · split at h
              · cases h
                exact hbelow
              · cases h
        · cases h
      · split at h
        · cases h
          rfl
        · cases h

end Files

end AgentDeck.Fs
