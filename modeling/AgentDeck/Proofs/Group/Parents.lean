import Mathlib
import AgentDeck.Proofs.Group.Walk

/-!
The parent of a group path, against the children and the roots of a table.

A group's parent is the path before its last slash (`parentPath`); a path without a slash has
none. The table finds the children of a path by another test: the path and a slash in front, and
exactly one slash more than the path. Its roots are the groups without a slash. The two tests
agree on every path, also on paths with empty pieces such as `""`, `"a/"`, `"/x"` or `"a//b"`:
the children of `p` are the paths of the table whose parent is `p`, in string order, and the
roots are the groups without a parent, in display order. A group so has one place in the tree,
under its parent or among the roots, and the walk of the session tree meets it once at most.
-/

namespace AgentDeck

namespace Text

variable {sep : Char}

theorem append_sep_inj {a b c d : List Char} (h : a ++ sep :: b = c ++ sep :: d) (hb : sep ∉ b)
    (hd : sep ∉ d) : a = c ∧ b = d := by
  rcases List.append_eq_append_iff.mp h with ⟨x, rfl, hx⟩ | ⟨x, rfl, hx⟩
  · cases x with
    | nil => simp_all
    | cons y ys =>
      -- the separator after `a` would lie in `b`
      simp only [List.cons_append, List.cons.injEq] at hx
      exact absurd (hx.2 ▸ List.mem_append_right _ List.mem_cons_self) hb
  · cases x with
    | nil => simp_all
    | cons y ys =>
      simp only [List.cons_append, List.cons.injEq] at hx
      exact absurd (hx.2 ▸ List.mem_append_right _ List.mem_cons_self) hd

theorem splitLast_append_sep {up last : List Char} (h : sep ∉ last) :
    splitLast sep (up ++ sep :: last) = some (up, last) := by
  have hsep : sep ∈ up ++ sep :: last := by simp
  obtain ⟨⟨u, l⟩, hsplit⟩ := Option.isSome_iff_exists.mp (splitLast_isSome hsep)
  obtain ⟨hcut, hl⟩ := splitLast_eq_some hsplit
  obtain ⟨rfl, rfl⟩ := append_sep_inj hcut.symm hl h
  exact hsplit

end Text

/-- The group a row shows, if it is a group's row. -/
def Row.groupShown : Row → Option String
  | .group path _ _ => some path
  | .session _ _ => none

namespace GroupTree

/-- The parent of a group: the path before its last slash, if it has one. -/
def parentPath (path : String) : Option String :=
  (Text.splitLast '/' path.toList).map fun (up, _) => String.ofList up

/-! ### The parent of a path -/

theorem parentPath_eq_some_iff {q p : String} :
    parentPath q = some p ↔ ∃ r, q.toList = p.toList ++ '/' :: r ∧ '/' ∉ r := by
  constructor
  · intro h
    obtain ⟨⟨up, last⟩, hsplit, rfl⟩ := Option.map_eq_some_iff.mp h
    obtain ⟨hq, hlast⟩ := Text.splitLast_eq_some hsplit
    exact ⟨last, by rw [hq, String.toList_ofList], hlast⟩
  · rintro ⟨r, hq, hr⟩
    rw [parentPath, hq, Text.splitLast_append_sep hr]
    simp

theorem parentPath_eq_none_iff {q : String} : parentPath q = none ↔ '/' ∉ q.toList := by
  rw [parentPath, Option.map_eq_none_iff]
  constructor
  · exact Text.not_mem_of_splitLast_eq_none
  · intro h
    cases hsplit : Text.splitLast '/' q.toList with
    | none => rfl
    | some cut =>
      have hq := (Text.splitLast_eq_some hsplit).1
      exact absurd (by rw [hq]; simp) h

/-- The parent of `q` is the group above it with one slash less. -/
theorem parentPath_eq_some_iff_isAncestor {q p : String} :
    parentPath q = some p ↔ IsAncestor p q ∧ depthOf q = depthOf p + 1 := by
  rw [parentPath_eq_some_iff]
  constructor
  · rintro ⟨r, hq, hr⟩
    exact ⟨⟨r, hq⟩, by simp [depthOf_eq, hq, List.count_eq_zero_of_not_mem hr]⟩
  · rintro ⟨⟨r, hq⟩, hd⟩
    refine ⟨r, hq, fun hr => ?_⟩
    have := List.count_pos_iff.mpr hr
    simp only [depthOf_eq, hq, List.count_append, List.count_cons_self] at hd
    omega

example : parentPath "a//b" = some "a/" ∧ parentPath "/x" = some "" ∧ parentPath "a/" = some "a" ∧
    parentPath "" = none := by decide

/-! ### Children and roots by their parents -/

/-- A sort by a comparison that reads a key's linear order leaves the list ordered by the key. -/
theorem pairwise_mergeSort_of_iff {α β : Type} [LinearOrder β] {le : α → α → Bool} (key : α → β)
    (h : ∀ a b, le a b = true ↔ key a ≤ key b) (l : List α) :
    (l.mergeSort le).Pairwise fun a b => key a ≤ key b := by
  have htrans (a b c : α) (hab : le a b = true) (hbc : le b c = true) : le a c = true :=
    (h a c).mpr (le_trans ((h a b).mp hab) ((h b c).mp hbc))
  have htotal (a b : α) : (le a b || le b a) = true := by
    rw [Bool.or_eq_true, h, h]
    exact le_total _ _
  exact (List.pairwise_mergeSort htrans htotal l).imp fun hab => (h _ _).mp hab

theorem before_iff_lex (a b : Group) :
    Group.before a b = true ↔ toLex (a.order, a.path) ≤ toLex (b.order, b.path) := by
  simp only [Group.before, Prod.Lex.toLex_le_toLex, Bool.or_eq_true, Bool.and_eq_true,
    decide_eq_true_eq, beq_iff_eq, Bool.not_eq_true', decide_eq_false_iff_not, not_lt]

section Table

variable {t : GroupTree}

theorem mem_children_iff_parentPath {p c : String} :
    c ∈ t.children p ↔ c ∈ t.groups.map (·.path) ∧ parentPath c = some p := by
  rw [mem_children_iff, parentPath_eq_some_iff_isAncestor]

theorem children_perm (t : GroupTree) (p : String) :
    (t.children p).Perm ((t.groups.map (·.path)).filter fun q => parentPath q = some p) := by
  have hslash : "/".toList = ['/'] := rfl
  refine (List.mergeSort_perm _ _).trans (List.Perm.of_eq (List.filter_congr fun q _ => ?_))
  -- the table's test, `p` and a slash in front and one slash more, is the parent's
  rw [Bool.eq_iff_iff, decide_eq_true_iff, parentPath_eq_some_iff_isAncestor,
    isAncestor_iff_isPrefixOf]
  simp [String.toList_append, hslash]

theorem children_sorted (t : GroupTree) (p : String) : (t.children p).Pairwise (· ≤ ·) :=
  pairwise_mergeSort_of_iff id
    (fun a b => by rw [Bool.not_eq_true', decide_eq_false_iff_not, not_lt, id, id]) _

theorem roots_sorted (t : GroupTree) :
    ∃ gs : List Group, gs.Perm (t.groups.filter fun g => parentPath g.path = none) ∧
      gs.Pairwise (fun a b => toLex (a.order, a.path) ≤ toLex (b.order, b.path)) ∧
      t.roots = gs.map (·.path) := by
  refine ⟨_, (List.mergeSort_perm _ _).trans (List.Perm.of_eq (List.filter_congr fun g _ => ?_)),
    pairwise_mergeSort_of_iff _ before_iff_lex _, rfl⟩
  simp [parentPath_eq_none_iff]

theorem eq_of_mem_children {q p₁ p₂ : String} (h₁ : q ∈ t.children p₁) (h₂ : q ∈ t.children p₂) :
    p₁ = p₂ := by
  have h := (mem_children_iff_parentPath.mp h₁).2
  rw [(mem_children_iff_parentPath.mp h₂).2] at h
  exact (Option.some.inj h).symm

theorem not_mem_roots_of_mem_children {q p : String} (h : q ∈ t.children p) : q ∉ t.roots := by
  intro hr
  have hchild := (mem_children_iff.mp h).2.2
  have hroot := (mem_roots_iff.mp hr).2
  omega

end Table

/-! ### The walk meets each group once -/

section Walk

variable {ss : List Session} {t : GroupTree}

theorem groupShown_groupRows_succ (fuel : Nat) (p : String) (d : Nat) :
    (groupRows ss t (fuel + 1) p d).filterMap Row.groupShown =
      p :: if t.isExpanded p then
        (t.children p).flatMap fun c => (groupRows ss t fuel c (d + 1)).filterMap Row.groupShown
      else [] := by
  rw [groupRows_succ]
  cases t.isExpanded p <;> simp [List.filterMap_append, List.filterMap_flatMap,
    List.filterMap_map, Function.comp_def, Row.groupShown]

theorem along_of_mem_groupShown {fuel : Nat} {p q : String} {d : Nat}
    (h : q ∈ (groupRows ss t fuel p d).filterMap Row.groupShown) : p = q ∨ IsAncestor p q := by
  obtain ⟨r, hr, hq⟩ := List.mem_filterMap.mp h
  cases r with
  | group q' n e =>
    obtain rfl := Option.some.inj hq
    rcases (mem_groupRows_group hr).1 with rfl | ⟨hpq, -⟩
    · exact .inl rfl
    · exact .inr hpq
  | session id e => exact absurd hq (by simp [Row.groupShown])

theorem disjoint_groupShown {f₁ f₂ d₁ d₂ : Nat} {p₁ p₂ : String} (hne : p₁ ≠ p₂)
    (hd : depthOf p₁ = depthOf p₂) :
    List.Disjoint ((groupRows ss t f₁ p₁ d₁).filterMap Row.groupShown)
      ((groupRows ss t f₂ p₂ d₂).filterMap Row.groupShown) := fun _ hq₁ hq₂ =>
  hne (eq_of_along_of_depthOf_eq (along_of_mem_groupShown hq₁) (along_of_mem_groupShown hq₂) hd)

theorem nodup_groupShown_groupRows (fuel : Nat) :
    ∀ p d, ((groupRows ss t fuel p d).filterMap Row.groupShown).Nodup := by
  induction fuel with
  | zero => simp [groupRows]
  | succ fuel ih =>
    intro p d
    rw [groupShown_groupRows_succ]
    split
    · refine List.nodup_cons.mpr
        ⟨fun hp => ?_, List.nodup_flatMap.mpr ⟨fun c _ => ih c (d + 1), ?_⟩⟩
      · -- every group met below a child lies below `p`
        obtain ⟨c, hc, hp⟩ := List.mem_flatMap.mp hp
        have hpc := (mem_children_iff.mp hc).2.1
        rcases along_of_mem_groupShown hp with rfl | hcp
        · exact IsAncestor.irrefl _ hpc
        · exact IsAncestor.irrefl _ (hpc.trans hcp)
      · -- the children of `p` have one depth, so their walks meet no group in common
        refine (t.nodup_children p).imp_of_mem fun hc₁ hc₂ hne => disjoint_groupShown hne ?_
        rw [(mem_children_iff.mp hc₁).2.2, (mem_children_iff.mp hc₂).2.2]
    · exact List.nodup_singleton p

theorem nodup_groupShown_buildRows : ((buildRows ss t).filterMap Row.groupShown).Nodup := by
  rw [buildRows_eq_walk, List.filterMap_append, List.filterMap_flatMap]
  have hloose : ((sortSessions (ss.filter (·.groupPath.isEmpty))).map
      fun s => Row.session s.id 0).filterMap Row.groupShown = [] := by
    simp [List.filterMap_map, Function.comp_def, Row.groupShown]
  rw [hloose, List.nil_append]
  refine List.nodup_flatMap.mpr ⟨fun r _ => nodup_groupShown_groupRows _ r 0, ?_⟩
  refine t.nodup_roots.imp_of_mem fun hr₁ hr₂ hne => disjoint_groupShown hne ?_
  rw [(mem_roots_iff.mp hr₁).2, (mem_roots_iff.mp hr₂).2]

end Walk

/-! ### Children and roots, all together -/

/-- **Children and roots follow the parent.** A path's parent is the path before its last slash,
and only a path with a slash has one. The children of any path `p` are the paths of the table
whose parent is `p`, in string order; the roots are the groups without a parent, by display order
and then path. So a group is listed under one parent at most, and never both under a parent and
among the roots; and when no two groups share a path, the walk of the session tree meets each
group once at most. -/
theorem children_and_roots_follow_parentPath (t : GroupTree) :
    (∀ q p, parentPath q = some p ↔ ∃ r, q.toList = p.toList ++ '/' :: r ∧ '/' ∉ r) ∧
    (∀ q, parentPath q = none ↔ '/' ∉ q.toList) ∧
    (∀ p, (t.children p).Perm ((t.groups.map (·.path)).filter fun q => parentPath q = some p) ∧
      (t.children p).Pairwise (· ≤ ·)) ∧
    (∃ gs : List Group, gs.Perm (t.groups.filter fun g => parentPath g.path = none) ∧
      gs.Pairwise (fun a b => toLex (a.order, a.path) ≤ toLex (b.order, b.path)) ∧
      t.roots = gs.map (·.path)) ∧
    (∀ q p₁ p₂, q ∈ t.children p₁ → q ∈ t.children p₂ → p₁ = p₂) ∧
    (∀ q p, q ∈ t.children p → q ∉ t.roots) ∧
    ((t.groups.map (·.path)).Nodup → ∀ ss, ((buildRows ss t).filterMap Row.groupShown).Nodup) :=
  ⟨fun _ _ => parentPath_eq_some_iff, fun _ => parentPath_eq_none_iff,
    fun p => ⟨children_perm t p, children_sorted t p⟩, roots_sorted t,
    fun _ _ _ => eq_of_mem_children, fun _ _ => not_mem_roots_of_mem_children,
    fun _ _ => nodup_groupShown_buildRows⟩

/-- Groups at paths with empty pieces: `a`, `a/`, `a//b`, the empty path and `/x`. -/
def emptyPiecesTable : GroupTree :=
  ⟨[{ name := "a", path := "a" }, { name := "", path := "a/" }, { name := "b", path := "a//b" },
    { name := "", path := "" }, { name := "x", path := "/x" }], by decide⟩

theorem emptyPieces_follow_parentPath :
    (emptyPiecesTable.groups.map (·.path)).Nodup ∧
    (∀ q p, parentPath q = some p ↔ ∃ r, q.toList = p.toList ++ '/' :: r ∧ '/' ∉ r) ∧
    (∀ q, parentPath q = none ↔ '/' ∉ q.toList) ∧
    (∀ p, (emptyPiecesTable.children p).Perm
        ((emptyPiecesTable.groups.map (·.path)).filter fun q => parentPath q = some p) ∧
      (emptyPiecesTable.children p).Pairwise (· ≤ ·)) ∧
    (∃ gs : List Group, gs.Perm (emptyPiecesTable.groups.filter fun g => parentPath g.path = none) ∧
      gs.Pairwise (fun a b => toLex (a.order, a.path) ≤ toLex (b.order, b.path)) ∧
      emptyPiecesTable.roots = gs.map (·.path)) ∧
    (∀ q p₁ p₂, q ∈ emptyPiecesTable.children p₁ → q ∈ emptyPiecesTable.children p₂ → p₁ = p₂) ∧
    (∀ q p, q ∈ emptyPiecesTable.children p → q ∉ emptyPiecesTable.roots) ∧
    ((emptyPiecesTable.groups.map (·.path)).Nodup →
      ∀ ss, ((buildRows ss emptyPiecesTable).filterMap Row.groupShown).Nodup) :=
  ⟨emptyPiecesTable.nodup, children_and_roots_follow_parentPath emptyPiecesTable⟩

end GroupTree

end AgentDeck
