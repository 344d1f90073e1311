import Mathlib
import AgentDeck.Proofs.Group.Members

/-!
Group paths and the groups above them.

A group path is cut into pieces at its slashes; the groups above a path are the paths before
each of its slashes (`IsAncestor`). Creating a group creates the missing groups above it, walking
up the path one slash at a time, so creating keeps a table closed under the groups above
(`Closed`): every group in it has the groups above it. A table built from stored groups is
closed if the stored groups are. Unfolding the way to a path unfolds the path and every group
above it.
-/

namespace AgentDeck

namespace Text

variable {sep c : Char} {cs : List Char}

theorem splitOnChar_cons_sep : splitOnChar sep (sep :: cs) = [] :: splitOnChar sep cs := by
  simp [splitOnChar]

theorem splitOnChar_ne_nil (s : List Char) : splitOnChar sep s ≠ [] := by
  cases s with
  | nil => simp [splitOnChar]
  | cons c cs =>
    unfold splitOnChar
    split
    · simp
    · split <;> simp

/-- A character other than the separator joins the first piece. -/
theorem splitOnChar_cons_of_ne (hc : c ≠ sep) :
    ∃ p ps, splitOnChar sep cs = p :: ps ∧ splitOnChar sep (c :: cs) = (c :: p) :: ps := by
  obtain ⟨p, ps, h⟩ := List.exists_cons_of_ne_nil (@splitOnChar_ne_nil sep cs)
  exact ⟨p, ps, h, by simp [splitOnChar, hc, h]⟩

theorem intercalate_splitOnChar (s : List Char) : [sep].intercalate (splitOnChar sep s) = s := by
  induction s with
  | nil => rfl
  | cons c cs ih =>
    by_cases hc : c = sep
    · subst hc
      rw [splitOnChar_cons_sep, List.intercalate_cons_of_ne_nil (splitOnChar_ne_nil cs), ih]
      rfl
    · obtain ⟨p, ps, h, h'⟩ := @splitOnChar_cons_of_ne _ _ cs hc
      rw [h', List.intercalate_cons_cons_left, ← h, ih]

theorem not_mem_of_mem_splitOnChar {s p : List Char} (hp : p ∈ splitOnChar sep s) : sep ∉ p := by
  induction s generalizing p with
  | nil => simp_all [splitOnChar]
  | cons c cs ih =>
    by_cases hc : c = sep
    · subst hc
      rw [splitOnChar_cons_sep] at hp
      rcases List.mem_cons.mp hp with rfl | hp
      · simp
      · exact ih hp
    · obtain ⟨q, qs, h, h'⟩ := @splitOnChar_cons_of_ne _ _ cs hc
      rw [h'] at hp
      rcases List.mem_cons.mp hp with rfl | hp
      · simp only [List.mem_cons, not_or]
        exact ⟨Ne.symm hc, ih (h ▸ List.mem_cons_self)⟩
      · exact ih (h ▸ List.mem_cons_of_mem _ hp)

theorem splitOnChar_append_sep (a b : List Char) :
    splitOnChar sep (a ++ sep :: b) = splitOnChar sep a ++ splitOnChar sep b := by
  induction a with
  | nil => simp [splitOnChar_cons_sep, splitOnChar]
  | cons c cs ih =>
    by_cases hc : c = sep
    · subst hc
      rw [List.cons_append, splitOnChar_cons_sep, splitOnChar_cons_sep, ih]
      rfl
    · obtain ⟨q, qs, h, h'⟩ := @splitOnChar_cons_of_ne _ _ cs hc
      obtain ⟨r, rs, hr, hr'⟩ := @splitOnChar_cons_of_ne _ _ (cs ++ sep :: b) hc
      rw [List.cons_append, hr', h']
      rw [ih, h] at hr
      simp only [List.cons_append, List.cons.injEq, true_and] at hr ⊢
      exact ⟨hr.1.symm, hr.2.symm⟩
theorem intercalate_append_singleton {xs : List (List Char)} (hxs : xs ≠ []) (l : List Char) :
    [sep].intercalate (xs ++ [l]) = [sep].intercalate xs ++ sep :: l := by
  induction xs with
  | nil => exact absurd rfl hxs
  | cons x xs ih =>
    cases xs with
    | nil => simp
    | cons y ys =>
      rw [show (x :: y :: ys) ++ [l] = x :: ((y :: ys) ++ [l]) from rfl,
        List.intercalate_cons_of_ne_nil (by simp), ih (by simp), List.intercalate_cons_cons]
      simp

/-- The text before the last separator, the separator, and the text after it, which holds no
separator. -/
theorem splitLast_eq_some {s up last : List Char} (h : splitLast sep s = some (up, last)) :
    s = up ++ sep :: last ∧ sep ∉ last := by
  unfold splitLast at h
  split at h
  · next l x xs hrev =>
    obtain ⟨rfl, rfl⟩ := Prod.mk.inj (Option.some.inj h)
    have hpieces : splitOnChar sep s = (x :: xs).reverse ++ [l] := by
      rw [← List.reverse_reverse (splitOnChar sep s), hrev]
      simp
    refine ⟨?_, not_mem_of_mem_splitOnChar (s := s) (by rw [hpieces]; simp)⟩
    conv_lhs => rw [← @intercalate_splitOnChar sep s, hpieces]
    exact intercalate_append_singleton (by simp) l
  · simp at h

theorem splitLast_isSome {s : List Char} (h : sep ∈ s) : (splitLast sep s).isSome := by
  obtain ⟨a, b, rfl⟩ := List.append_of_mem h
  unfold splitLast
  rw [splitOnChar_append_sep, List.reverse_append]
  obtain ⟨y, ys, hy⟩ := List.exists_cons_of_ne_nil
    (List.reverse_ne_nil_iff.mpr (@splitOnChar_ne_nil sep b))
  obtain ⟨z, zs, hz⟩ := List.exists_cons_of_ne_nil
    (List.reverse_ne_nil_iff.mpr (@splitOnChar_ne_nil sep a))
  rw [hy, hz]
  cases ys <;> rfl

theorem not_mem_of_splitLast_eq_none {s : List Char} (h : splitLast sep s = none) : sep ∉ s :=
  fun hs => by simpa [h] using splitLast_isSome hs

end Text

namespace GroupTree

/-- The group at `a` is above the group at `p`: `p` goes on from `a` past a slash. -/
def IsAncestor (a p : String) : Prop := ∃ rest, p.toList = a.toList ++ '/' :: rest

theorem IsAncestor.trans {a b c : String} (hab : IsAncestor a b) (hbc : IsAncestor b c) :
    IsAncestor a c := by
  obtain ⟨r, hr⟩ := hab
  obtain ⟨r', hr'⟩ := hbc
  exact ⟨r ++ '/' :: r', by rw [hr', hr]; simp⟩

theorem IsAncestor.length_lt {a p : String} (h : IsAncestor a p) :
    a.toList.length < p.toList.length := by
  obtain ⟨r, hr⟩ := h
  rw [hr]
  simp

theorem IsAncestor.irrefl (a : String) : ¬IsAncestor a a := fun h => Nat.lt_irrefl _ h.length_lt

/-- No group is above the empty path. -/
theorem IsAncestor.ne_empty {a p : String} (h : IsAncestor a p) : p ≠ "" := by
  rintro rfl
  obtain ⟨r, hr⟩ := h
  simp at hr

/-- The groups above `p` are its parent, the path before its last slash, and the groups above
that. -/
theorem isAncestor_iff_of_splitLast {p : String} {up last : List Char}
    (h : Text.splitLast '/' p.toList = some (up, last)) (a : String) :
    IsAncestor a p ↔ a = String.ofList up ∨ IsAncestor a (String.ofList up) := by
  obtain ⟨hp, hlast⟩ := Text.splitLast_eq_some h
  have hup : a = String.ofList up ↔ a.toList = up := by
    constructor
    · rintro rfl
      exact String.toList_ofList
    · intro ha
      rw [← ha, String.ofList_toList]
  rw [hup]
  constructor
  · rintro ⟨r, hr⟩
    rw [hp] at hr
    rcases List.append_eq_append_iff.mp hr with ⟨a', ha, hrest⟩ | ⟨c', hc, hrest⟩
    · -- the slash after `a` cannot lie in the last piece
      cases a' with
      | nil => exact .inl (by simpa using ha)
      | cons x xs =>
        simp only [List.cons_append, List.cons.injEq] at hrest
        exact absurd (hrest.2 ▸ List.mem_append_right _ List.mem_cons_self) hlast
    · cases c' with
      | nil => exact .inl (by simpa using hc.symm)
      | cons x xs =>
        simp only [List.cons_append, List.cons.injEq] at hrest
        obtain ⟨rfl, -⟩ := hrest
        exact .inr ⟨xs, by rw [String.toList_ofList, hc]⟩
  · rintro (ha | ⟨r, hr⟩)
    · exact ⟨last, by rw [hp, ha]⟩
    · rw [String.toList_ofList] at hr
      exact ⟨r ++ '/' :: last, by rw [hp, hr]; simp⟩

theorem not_isAncestor_of_splitLast {p : String} (h : Text.splitLast '/' p.toList = none)
    (a : String) : ¬IsAncestor a p := by
  rintro ⟨r, hr⟩
  exact Text.not_mem_of_splitLast_eq_none h (by rw [hr]; simp)

/-! ### Tables closed under the groups above -/

/-- A table in which every group has the groups above it. -/
def Closed (t : GroupTree) : Prop :=
  ∀ p ∈ t.groups.map (·.path), ∀ a, IsAncestor a p → a ∈ t.groups.map (·.path)

/-- A table of paths without slashes has no group above another, and is closed. -/
theorem closed_of_flat {t : GroupTree} (h : ∀ g ∈ t.groups, '/' ∉ g.path.toList) : t.Closed := by
  intro p hp a ⟨r, hr⟩
  obtain ⟨g, hg, rfl⟩ := List.mem_map.mp hp
  have hsep : '/' ∈ g.path.toList := by
    rw [hr]
    simp
  exact absurd hsep (h g hg)

theorem lineage_succ (fuel : Nat) (path : List Char) :
    lineage (fuel + 1) path = String.ofList path ::
      match Text.splitLast '/' path with
      | some (up, _) => lineage fuel up
      | none => [] := rfl

theorem createChain_cons (t : GroupTree) (p : String) (ps : List String) :
    createChain t (p :: ps) =
      if (t.get? p).isSome then t else createChain (t.put (Group.ofPath p)) ps := rfl

section Chain

variable {t₀ : GroupTree}

theorem closed_createChain (h₀ : t₀.Closed) (fuel : Nat) :
    ∀ (q : List Char) (t : GroupTree), q.length < fuel →
      (∀ p ∈ t₀.groups.map (·.path), p ∈ t.groups.map (·.path)) →
      (∀ p ∈ t.groups.map (·.path), p ∈ t₀.groups.map (·.path) ∨ IsAncestor (String.ofList q) p) →
      (∀ p ∈ t.groups.map (·.path), ∀ a, IsAncestor a p →
        a ∈ t.groups.map (·.path) ∨ a = String.ofList q ∨ IsAncestor a (String.ofList q)) →
      (createChain t (lineage fuel q)).Closed := by
  induction fuel with
  | zero => exact fun q _ hq => absurd hq (Nat.not_lt_zero _)
  | succ fuel ih =>
    intro q t hq hsub hnew hmiss
    rw [lineage_succ, createChain_cons]
    split
    · next hex =>
      -- the chain stops at `q`, which was there before it began, and so are the groups above
      have hq₀ : String.ofList q ∈ t₀.groups.map (·.path) :=
        (hnew _ ((get?_isSome_iff t _).mp hex)).resolve_right (IsAncestor.irrefl _)
      intro p hp a ha
      rcases hmiss p hp a ha with h | rfl | h
      · exact h
      · exact (get?_isSome_iff t _).mp hex
      · exact hsub _ (h₀ _ hq₀ a h)
    · have hput (p : String) : p ∈ (t.put (Group.ofPath (String.ofList q))).groups.map (·.path) ↔
          p ∈ t.groups.map (·.path) ∨ p = String.ofList q :=
        mem_paths_put _ _ _
      split
      · next up last hsplit =>
        have hsplit' : Text.splitLast '/' (String.ofList q).toList = some (up, last) := by
          rwa [String.toList_ofList]
        have hanc := isAncestor_iff_of_splitLast hsplit'
        have hlen : up.length < fuel := by
          have hq' := (Text.splitLast_eq_some hsplit).1
          rw [hq'] at hq
          simp only [List.length_append, List.length_cons] at hq
          omega
        refine ih up _ hlen (fun p hp => (hput p).mpr (.inl (hsub p hp))) ?_ ?_
        · intro p hp
          rcases (hput p).mp hp with hp | rfl
          · rcases hnew p hp with h | h
            · exact .inl h
            · exact .inr (((hanc _).mpr (.inl rfl)).trans h)
          · exact .inr ((hanc _).mpr (.inl rfl))
        · intro p hp a ha
          rcases (hput p).mp hp with hp | rfl
          · rcases hmiss p hp a ha with h | rfl | h
            · exact .inl ((hput a).mpr (.inl h))
            · exact .inl ((hput _).mpr (.inr rfl))
            · exact .inr ((hanc a).mp h)
          · exact .inr ((hanc a).mp ha)
      · next hsplit =>
        -- `q` has no slash, so nothing is above it and the chain ends
        have hnone := not_isAncestor_of_splitLast (p := String.ofList q)
          (by rwa [String.toList_ofList])
        show Closed (t.put (Group.ofPath (String.ofList q)))
        intro p hp a ha
        rcases (hput p).mp hp with hp | rfl
        · rcases hmiss p hp a ha with h | rfl | h
          · exact (hput a).mpr (.inl h)
          · exact (hput _).mpr (.inr rfl)
          · exact absurd h (hnone a)
        · exact absurd ha (hnone a)

end Chain

/-- Creating a group and its missing ancestors keeps a table closed. -/
theorem closed_create {t : GroupTree} (h : t.Closed) (path : String) : (t.create path).1.Closed := by
  unfold create
  split
  · exact h
  · refine closed_createChain h _ path.toList t (by simp [String.length_toList]) (fun _ hp => hp)
      (fun _ hp => .inl hp) (fun p hp a ha => .inl (h p hp a ha))

theorem Closed.of_paths {t t' : GroupTree} (h : t.Closed)
    (hp : t'.groups.map (·.path) = t.groups.map (·.path)) : t'.Closed := by
  intro p hp' a ha
  rw [hp] at hp' ⊢
  exact h p hp' a ha

theorem Closed.of_listing {t t' : GroupTree} (h : t.Closed) (hl : t'.listing = t.listing) :
    t'.Closed :=
  h.of_paths (paths_eq_of_listing hl)

theorem closed_foldl_createFor {t : GroupTree} (h : t.Closed) (ss : List Session) :
    (ss.foldl createFor t).Closed := by
  refine List.foldlRecOn (motive := fun t => t.Closed) ss createFor h ?_
  intro t ht s _
  unfold createFor
  split
  · exact ht
  · exact closed_create ht _

theorem closed_syncSessions {t : GroupTree} (h : t.Closed) (ss : List Session) :
    (t.syncSessions ss).Closed :=
  (closed_foldl_createFor h ss).of_paths (by simp [syncSessions, List.map_map, Function.comp_def])

/-- Groups stored with the groups above them make a closed table. -/
theorem closed_ofParts {gs : List Group} (h : (ofGroups gs).Closed) (ss : List Session) :
    (ofParts gs ss).Closed :=
  closed_syncSessions h ss

/-! ### Unfolding the groups on the way to a path -/

theorem get?_setExpanded (t : GroupTree) (q : String) (b : Bool) (a : String) :
    (t.setExpanded q b).get? a =
      (t.get? a).map fun g => if g.path == q then { g with expanded := b } else g := by
  simp only [get?, setExpanded, modify, List.find?_map]
  congr 1
  apply List.find?_congr
  intro g _
  simp only [Function.comp]
  split <;> rfl

theorem isExpanded_setExpanded_true (t : GroupTree) (q a : String)
    (h : a = q ∨ t.isExpanded a = true) : (t.setExpanded q true).isExpanded a = true := by
  unfold isExpanded
  rw [get?_setExpanded]
  cases hg : t.get? a with
  | none => rfl
  | some g =>
    have hpath : g.path = a := by
      simpa [get?] using List.find?_some hg
    simp only [Option.map_some]
    split
    · rfl
    · next hne =>
      rcases h with rfl | h
      · exact absurd (by simp [hpath]) hne
      · simpa [isExpanded, hg] using h

theorem isExpanded_foldl_setExpanded {β : Type} (f : β → String) (bs : List β) {t : GroupTree}
    {a : String} (h : (∃ b ∈ bs, f b = a) ∨ t.isExpanded a = true) :
    (bs.foldl (fun acc b => acc.setExpanded (f b) true) t).isExpanded a = true := by
  induction bs generalizing t with
  | nil => simpa using h
  | cons b bs ih =>
    rw [List.foldl_cons]
    refine ih ?_
    rcases h with ⟨b', hb', rfl⟩ | h
    · rcases List.mem_cons.mp hb' with rfl | hb'
      · exact .inr (isExpanded_setExpanded_true t _ _ (.inl rfl))
      · exact .inl ⟨b', hb', rfl⟩
    · exact .inr (isExpanded_setExpanded_true t _ _ (.inr h))

theorem toList_joinPieces (xs : List (List Char)) :
    ("/".intercalate (xs.map String.ofList)).toList = ['/'].intercalate xs := by
  simp [String.toList_intercalate, List.map_map, Function.comp_def]

theorem exists_piece_prefix {a p : String} (h : a = p ∨ IsAncestor a p) :
    ∃ i < (Text.splitOnChar '/' p.toList).length,
      "/".intercalate (((Text.splitOnChar '/' p.toList).take (i + 1)).map String.ofList) = a := by
  rcases h with rfl | ⟨r, hr⟩
  · have hpos := List.length_pos_of_ne_nil (@Text.splitOnChar_ne_nil '/' a.toList)
    refine ⟨_, Nat.sub_lt hpos Nat.one_pos, ?_⟩
    rw [← String.toList_inj, toList_joinPieces, Nat.sub_add_cancel hpos, List.take_length,
      Text.intercalate_splitOnChar]
  · have hpos := List.length_pos_of_ne_nil (@Text.splitOnChar_ne_nil '/' a.toList)
    have hrest := List.length_pos_of_ne_nil (@Text.splitOnChar_ne_nil '/' r)
    rw [hr, Text.splitOnChar_append_sep]
    refine ⟨(Text.splitOnChar '/' a.toList).length - 1, by simp; omega, ?_⟩
    rw [← String.toList_inj, toList_joinPieces, Nat.sub_add_cancel hpos, List.take_left',
      Text.intercalate_splitOnChar]
    rfl

/-- Unfolding the way to `p` unfolds `p` and every group above it. -/
theorem isExpanded_expandTo (t : GroupTree) {a p : String} (h : a = p ∨ IsAncestor a p) :
    (t.expandTo p).isExpanded a = true := by
  obtain ⟨i, hi, hpre⟩ := exists_piece_prefix h
  exact isExpanded_foldl_setExpanded _ _ (.inl ⟨i, List.mem_range.mpr hi, hpre⟩)

/-! ### The way down to a group path -/

theorem depthOf_eq (p : String) : depthOf p = p.toList.count '/' := rfl

theorem IsAncestor.depthOf_le {a p : String} (h : IsAncestor a p) : depthOf a + 1 ≤ depthOf p := by
  obtain ⟨r, hr⟩ := h
  simp [depthOf_eq, hr]

/-- Below `q` on the way to `p` lies a group one level deeper: `q`, a slash, and the next piece
of `p`. -/
theorem exists_child_toward {q p : String} (h : IsAncestor q p) :
    ∃ c : String, IsAncestor q c ∧ depthOf c = depthOf q + 1 ∧ (c = p ∨ IsAncestor c p) := by
  obtain ⟨r, hr⟩ := h
  have hw : '/' ∉ r.takeWhile (· != '/') := fun hm => by
    simpa using List.all_eq_true.mp List.all_takeWhile _ hm
  refine ⟨String.ofList (q.toList ++ '/' :: r.takeWhile (· != '/')), ⟨_, String.toList_ofList⟩, ?_, ?_⟩
  · simp [depthOf_eq, List.count_eq_zero_of_not_mem hw]
  · cases hz : r.dropWhile (· != '/') with
    | nil =>
      have hrw : r = r.takeWhile (· != '/') := by
        simpa [hz] using (List.takeWhile_append_dropWhile (p := (· != '/')) (l := r)).symm
      refine .inl ?_
      rw [← String.toList_inj, String.toList_ofList, hr, ← hrw]
    | cons x rest =>
      have hx : x = '/' := by
        have := List.head_dropWhile_not (· != '/') (l := r) (by simp [hz])
        simpa [hz] using this
      have hrw : r = r.takeWhile (· != '/') ++ '/' :: rest := by
        simpa [hz, hx] using (List.takeWhile_append_dropWhile (p := (· != '/')) (l := r)).symm
      refine .inr ⟨rest, ?_⟩
      rw [String.toList_ofList, hr]
      conv_lhs => rw [hrw]
      simp

/-- The group at the first piece of `p`, which has no slash. -/
theorem exists_root_toward (p : String) :
    ∃ r : String, depthOf r = 0 ∧ (r = p ∨ IsAncestor r p) := by
  have hw : '/' ∉ p.toList.takeWhile (· != '/') := fun hm => by
    simpa using List.all_eq_true.mp List.all_takeWhile _ hm
  refine ⟨String.ofList (p.toList.takeWhile (· != '/')), ?_, ?_⟩
  · simp [depthOf_eq, List.count_eq_zero_of_not_mem hw]
  · cases hz : p.toList.dropWhile (· != '/') with
    | nil =>
      have hrw : p.toList = p.toList.takeWhile (· != '/') := by
        simpa [hz] using (List.takeWhile_append_dropWhile (p := (· != '/')) (l := p.toList)).symm
      refine .inl ?_
      rw [← String.toList_inj, String.toList_ofList, ← hrw]
    | cons x rest =>
      have hx : x = '/' := by
        have := List.head_dropWhile_not (· != '/') (l := p.toList) (by simp [hz])
        simpa [hz] using this
      have hrw : p.toList = p.toList.takeWhile (· != '/') ++ '/' :: rest := by
        simpa [hz, hx] using (List.takeWhile_append_dropWhile (p := (· != '/')) (l := p.toList)).symm
      refine .inr ⟨rest, ?_⟩
      rw [String.toList_ofList]
      exact hrw

theorem along_of_mem_lineage (fuel : Nat) :
    ∀ (q : List Char) (a : String), a ∈ lineage fuel q →
      a = String.ofList q ∨ IsAncestor a (String.ofList q) := by
  induction fuel with
  | zero => exact fun _ _ ha => absurd ha List.not_mem_nil
  | succ fuel ih =>
    intro q a ha
    rw [lineage_succ] at ha
    rcases List.mem_cons.mp ha with rfl | ha
    · exact .inl rfl
    · split at ha
      · next up last hsplit =>
        have hanc := isAncestor_iff_of_splitLast (p := String.ofList q)
          (by rwa [String.toList_ofList])
        rcases ih up a ha with rfl | h
        · exact .inr ((hanc _).mpr (.inl rfl))
        · exact .inr ((hanc _).mpr (.inr h))
      · exact absurd ha List.not_mem_nil

theorem length_lineage (fuel : Nat) :
    ∀ q : List Char, q.length < fuel → (lineage fuel q).length = q.count '/' + 1 := by
  induction fuel with
  | zero => exact fun _ hq => absurd hq (Nat.not_lt_zero _)
  | succ fuel ih =>
    intro q hq
    rw [lineage_succ, List.length_cons]
    split
    · next up last hsplit =>
      obtain ⟨rfl, hlast⟩ := Text.splitLast_eq_some hsplit
      simp only [List.length_append, List.length_cons] at hq
      rw [ih up (by omega)]
      simp [List.count_eq_zero_of_not_mem hlast]
    · next hsplit =>
      simp [List.count_eq_zero_of_not_mem (Text.not_mem_of_splitLast_eq_none hsplit)]

theorem nodup_lineage (fuel : Nat) : ∀ q : List Char, (lineage fuel q).Nodup := by
  induction fuel with
  | zero => exact fun _ => List.nodup_nil
  | succ fuel ih =>
    intro q
    rw [lineage_succ]
    split
    · next up last hsplit =>
      have hanc := isAncestor_iff_of_splitLast (p := String.ofList q)
        (by rwa [String.toList_ofList])
      -- every later entry is above `q`, so shorter than it
      refine List.nodup_cons.mpr ⟨fun hq => ?_, ih up⟩
      have habove : IsAncestor (String.ofList q) (String.ofList q) := by
        rcases along_of_mem_lineage fuel up _ hq with h | h
        · exact (hanc _).mpr (.inl h)
        · exact (hanc _).mpr (.inr h)
      exact IsAncestor.irrefl _ habove
    · exact List.nodup_singleton _

/-- A table that holds `p` and every group above it has more groups than `p` has slashes. -/
theorem depthOf_lt_size {t : GroupTree} {p : String}
    (h : ∀ a, a = p ∨ IsAncestor a p → a ∈ t.groups.map (·.path)) : depthOf p < t.size + 1 := by
  have hsub : lineage (p.length + 1) p.toList ⊆ t.groups.map (·.path) := fun a ha =>
    h a (by simpa using along_of_mem_lineage _ _ _ ha)
  have hlen := (List.subperm_of_subset (nodup_lineage _ _) hsub).length_le
  rw [length_lineage _ _ (by simp [String.length_toList]), List.length_map] at hlen
  simp only [size, depthOf_eq]
  omega

theorem mem_children {t : GroupTree} {q c : String} (hc : c ∈ t.groups.map (·.path))
    (hq : IsAncestor q c) (hd : depthOf c = depthOf q + 1) : c ∈ t.children q := by
  obtain ⟨r, hr⟩ := hq
  simp only [children, List.mem_mergeSort, List.mem_filter]
  refine ⟨hc, ?_⟩
  simp [hr, hd, List.isPrefixOf_iff_prefix]

theorem mem_roots {t : GroupTree} {r : String} (hr : r ∈ t.groups.map (·.path))
    (hd : depthOf r = 0) : r ∈ t.roots := by
  obtain ⟨g, hg, rfl⟩ := List.mem_map.mp hr
  simp only [roots, List.mem_map, List.mem_mergeSort, List.mem_filter]
  refine ⟨g, ⟨hg, ?_⟩, rfl⟩
  simpa [depthOf_eq, List.count_eq_zero] using hd

end GroupTree

end AgentDeck
