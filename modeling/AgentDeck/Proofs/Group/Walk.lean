import Mathlib
import AgentDeck.Proofs.Group.Rows

/-!
The rows of the session tree, read as a walk.

`buildRows` lists the sessions without a group first, by title and then id, and then walks the
table from each group without a slash, in display order: a group's row and, if the group is
unfolded, the walks of its child groups and then its own sessions, one level deeper. The walk
carries fuel. Every group it steps down to lies below the group it steps from, so each step
leaves fewer groups of the table below; the fuel `buildRows` gives is never used up, and the walk
obeys its equation without fuel (`walk_eq`).

Groups on the way to one path are ordered by length, each shorter one above the longer ones
(`along_total`), and two of them with as many slashes are one (`eq_of_along_of_depthOf_eq`). From
that: a group's row sits at the depth of its path's slashes and a session's one level deeper than
its group's; no row comes twice when no two groups share a path and no two sessions an id; and a
session shows exactly when it has no group, or its group and every group above it are in the
table and unfolded (`buildRows_shows`).
-/

namespace AgentDeck

namespace GroupTree

/-! ### Groups on the way to a path -/

section Along

variable {a b q : String}

theorem isAncestor_iff_isPrefixOf (a p : String) :
    IsAncestor a p ↔ (a.toList ++ ['/']).isPrefixOf p.toList = true := by
  rw [List.isPrefixOf_iff_prefix]
  constructor
  · rintro ⟨r, hr⟩
    exact ⟨r, by rw [hr]; simp⟩
  · rintro ⟨r, hr⟩
    exact ⟨r, by rw [← hr]; simp⟩

theorem prefix_of_along (h : a = q ∨ IsAncestor a q) : a.toList <+: q.toList := by
  rcases h with rfl | ⟨r, hr⟩
  · exact List.prefix_refl _
  · exact ⟨'/' :: r, hr.symm⟩

theorem along_of_length_le (ha : a = q ∨ IsAncestor a q) (hb : b = q ∨ IsAncestor b q)
    (hlen : a.toList.length ≤ b.toList.length) : a = b ∨ IsAncestor a b := by
  obtain ⟨x, hx⟩ := List.prefix_of_prefix_length_le (prefix_of_along ha) (prefix_of_along hb) hlen
  cases x with
  | nil =>
    refine .inl (String.toList_inj.mp ?_)
    simpa using hx
  | cons y ys =>
    -- `b` goes on past `a`, so `a` is not `q`, and the character after `a` in `q` is a slash
    rcases ha with rfl | ⟨r, hr⟩
    · have := (prefix_of_along hb).length_le
      rw [← hx] at this
      simp at this
    · have hpre : a.toList ++ y :: ys <+: a.toList ++ '/' :: r := by
        rw [hx, ← hr]
        exact prefix_of_along hb
      obtain ⟨rfl, -⟩ := List.cons_prefix_cons.mp ((List.prefix_append_right_inj _).mp hpre)
      exact .inr ⟨ys, hx.symm⟩

/-- Groups on the way to one path are ordered: of two, one is the other or above it. -/
theorem along_total (ha : a = q ∨ IsAncestor a q) (hb : b = q ∨ IsAncestor b q) :
    a = b ∨ IsAncestor a b ∨ IsAncestor b a := by
  rcases le_total a.toList.length b.toList.length with hle | hle
  · rcases along_of_length_le ha hb hle with h | h
    · exact .inl h
    · exact .inr (.inl h)
  · rcases along_of_length_le hb ha hle with h | h
    · exact .inl h.symm
    · exact .inr (.inr h)

/-- Two groups on the way to one path with as many slashes are one group. -/
theorem eq_of_along_of_depthOf_eq (ha : a = q ∨ IsAncestor a q) (hb : b = q ∨ IsAncestor b q)
    (hd : depthOf a = depthOf b) : a = b := by
  rcases along_total ha hb with h | h | h
  · exact h
  · have := h.depthOf_le
    omega
  · have := h.depthOf_le
    omega

end Along

/-! ### Children and roots -/

section Table

variable {t : GroupTree}

theorem mem_children_iff {p c : String} :
    c ∈ t.children p ↔
      c ∈ t.groups.map (·.path) ∧ IsAncestor p c ∧ depthOf c = depthOf p + 1 := by
  have hslash : "/".toList = ['/'] := rfl
  simp only [children, List.mem_mergeSort, List.mem_filter, Bool.and_eq_true, beq_iff_eq,
    String.toList_append, hslash, ← isAncestor_iff_isPrefixOf]

theorem mem_roots_iff {r : String} : r ∈ t.roots ↔ r ∈ t.groups.map (·.path) ∧ depthOf r = 0 := by
  simp only [roots, List.mem_map, List.mem_mergeSort, List.mem_filter, depthOf_eq,
    List.count_eq_zero, Bool.not_eq_true', List.contains_eq_mem, decide_eq_false_iff_not]
  constructor
  · rintro ⟨g, ⟨hg, hs⟩, rfl⟩
    exact ⟨⟨g, hg, rfl⟩, hs⟩
  · rintro ⟨⟨g, hg, rfl⟩, hs⟩
    exact ⟨g, ⟨hg, hs⟩, rfl⟩

theorem nodup_children (t : GroupTree) (p : String) : (t.children p).Nodup :=
  (List.mergeSort_perm _ _).nodup_iff.mpr (t.nodup.filter _)

theorem nodup_roots (t : GroupTree) : t.roots.Nodup := by
  have hsub := (List.filter_sublist (l := t.groups) (p := fun g => !g.path.toList.contains '/')).map
    Group.path
  exact ((List.mergeSort_perm _ _).map Group.path).nodup_iff.mpr (hsub.nodup t.nodup)

end Table

/-! ### Fuel enough for the walk -/

/-- The paths of the table below `p`, as often as the table lists them. -/
def below (t : GroupTree) (p : String) : List String :=
  (t.groups.map (·.path)).filter fun q => (p.toList ++ ['/']).isPrefixOf q.toList

section Fuel

variable {ss : List Session} {t : GroupTree}

theorem mem_below {p q : String} : q ∈ t.below p ↔ q ∈ t.groups.map (·.path) ∧ IsAncestor p q := by
  rw [below, List.mem_filter, isAncestor_iff_isPrefixOf]

theorem length_below_le (t : GroupTree) (p : String) : (t.below p).length ≤ t.size := by
  have := List.length_filter_le (fun q => (p.toList ++ ['/']).isPrefixOf q.toList)
    (t.groups.map (·.path))
  simpa [below, size] using this

theorem length_below_lt_of_mem_children {p c : String} (hc : c ∈ t.children p) :
    (t.below c).length < (t.below p).length := by
  obtain ⟨hcp, hpc, -⟩ := mem_children_iff.mp hc
  have hsub : (t.below c).Sublist (t.below p) := by
    refine List.monotone_filter_right _ fun q hq => ?_
    rw [← isAncestor_iff_isPrefixOf] at hq ⊢
    exact hpc.trans hq
  refine lt_of_le_of_ne hsub.length_le fun heq => ?_
  have hmem : c ∈ t.below c := by
    rw [hsub.eq_of_length heq]
    exact mem_below.mpr ⟨hcp, hpc⟩
  exact IsAncestor.irrefl c (mem_below.mp hmem).2

/-- The name shown for the group at `path`: its own, or the last piece of its path. -/
def rowName (t : GroupTree) (path : String) : String :=
  match t.get? path with
  | some g => g.name
  | none => (Group.ofPath path).name

theorem groupRows_succ (fuel : Nat) (p : String) (d : Nat) :
    groupRows ss t (fuel + 1) p d =
      Row.group p (t.rowName p) d ::
        if t.isExpanded p then
          (t.children p).flatMap (fun c => groupRows ss t fuel c (d + 1)) ++
            (members ss p).map (Row.session · (d + 1))
        else [] := by
  cases hg : t.get? p <;> cases he : t.isExpanded p <;>
    simp [groupRows, he, hg, rowName, members, sortSessions, List.map_map]

theorem groupRows_succ_of_lt {fuel : Nat} :
    ∀ {p : String} {d : Nat}, (t.below p).length < fuel →
      groupRows ss t (fuel + 1) p d = groupRows ss t fuel p d := by
  induction fuel with
  | zero => exact fun h => absurd h (Nat.not_lt_zero _)
  | succ fuel ih =>
    intro p d h
    rw [groupRows_succ, groupRows_succ]
    -- each child has fewer groups below it, so its walk has fuel to spare as well
    have hchild : ∀ c ∈ t.children p, groupRows ss t (fuel + 1) c (d + 1) =
        groupRows ss t fuel c (d + 1) := fun c hc =>
      ih (by have := length_below_lt_of_mem_children hc; omega)
    rw [List.flatMap_congr hchild]

end Fuel

/-- The rows of the group at `path` at `depth` and of everything unfolded below it: the walk
`buildRows` makes from each root, with fuel for every group of the table. -/
def walk (ss : List Session) (t : GroupTree) (path : String) (depth : Nat) : List Row :=
  groupRows ss t (t.size + 1) path depth

section Walk

variable {ss : List Session} {t : GroupTree}

theorem buildRows_eq_walk (ss : List Session) (t : GroupTree) :
    buildRows ss t =
      (sortSessions (ss.filter (·.groupPath.isEmpty))).map (fun s => Row.session s.id 0) ++
        t.roots.flatMap (walk ss t · 0) := rfl

theorem walk_eq (p : String) (d : Nat) :
    walk ss t p d =
      Row.group p (t.rowName p) d ::
        if t.isExpanded p then
          (t.children p).flatMap (walk ss t · (d + 1)) ++ (members ss p).map (Row.session · (d + 1))
        else [] := by
  unfold walk
  rw [groupRows_succ]
  have hchild : ∀ c ∈ t.children p, groupRows ss t t.size c (d + 1) =
      groupRows ss t (t.size + 1) c (d + 1) := fun c hc =>
    (groupRows_succ_of_lt (lt_of_lt_of_le (length_below_lt_of_mem_children hc)
      (length_below_le t p))).symm
  rw [List.flatMap_congr hchild]

end Walk

/-! ### What a walk holds -/

section Members

variable {ss : List Session} {t : GroupTree}

theorem exists_of_mem_members {p id : String} (h : id ∈ members ss p) :
    ∃ s ∈ ss, s.id = id ∧ s.groupPath ≠ "" ∧ s.groupPath = p := by
  simp only [members, List.mem_map, List.mem_mergeSort, List.mem_filter, Bool.and_eq_true,
    Bool.not_eq_true', String.isEmpty_eq_false_iff, beq_iff_eq] at h
  obtain ⟨s, ⟨hs, hne, hp⟩, rfl⟩ := h
  exact ⟨s, hs, rfl, hne, hp⟩

theorem nodup_members (hids : (ss.map (·.id)).Nodup) (p : String) : (members ss p).Nodup := by
  obtain ⟨ms, hperm, -, hms⟩ := members_sorted hids p
  rw [hms]
  exact (hperm.map _).nodup_iff.mpr (((List.filter_sublist (l := ss)).map _).nodup hids)

end Members

section Rows

variable {ss : List Session} {t : GroupTree}

/-- A group's row in the walk from `p` is `p`'s own or a group of the table below `p`, as many
levels deeper as it has more slashes. -/
theorem mem_groupRows_group {fuel : Nat} :
    ∀ {p : String} {d : Nat} {q n : String} {e : Nat}, Row.group q n e ∈ groupRows ss t fuel p d →
      (q = p ∨ (IsAncestor p q ∧ q ∈ t.groups.map (·.path))) ∧ e + depthOf p = d + depthOf q := by
  induction fuel with
  | zero => exact fun h => absurd h List.not_mem_nil
  | succ fuel ih =>
    intro p d q n e h
    rw [groupRows_succ] at h
    rcases List.mem_cons.mp h with h | h
    · -- the group's own row
      obtain ⟨rfl, -, rfl⟩ := Row.group.inj h
      exact ⟨.inl rfl, rfl⟩
    · split at h
      · rcases List.mem_append.mp h with h | h
        · -- a row of a child's walk
          obtain ⟨c, hc, h⟩ := List.mem_flatMap.mp h
          obtain ⟨hcp, hpc, hdc⟩ := mem_children_iff.mp hc
          obtain ⟨hq, he⟩ := ih h
          refine ⟨.inr ?_, by omega⟩
          rcases hq with rfl | ⟨hcq, hq⟩
          · exact ⟨hpc, hcp⟩
          · exact ⟨hpc.trans hcq, hq⟩
        · obtain ⟨_, -, h⟩ := List.mem_map.mp h
          exact absurd h Row.noConfusion
      · exact absurd h List.not_mem_nil

theorem mem_groupRows_session {fuel : Nat} :
    ∀ {p : String} {d : Nat} {id : String} {e : Nat}, Row.session id e ∈ groupRows ss t fuel p d →
      ∃ s ∈ ss, s.id = id ∧ s.groupPath ≠ "" ∧ (s.groupPath = p ∨ IsAncestor p s.groupPath) ∧
        e + depthOf p = d + depthOf s.groupPath + 1 ∧
        ∀ a, (a = s.groupPath ∨ IsAncestor a s.groupPath) → (a = p ∨ IsAncestor p a) →
          t.isExpanded a = true ∧ (a = p ∨ a ∈ t.groups.map (·.path)) := by
  induction fuel with
  | zero => exact fun h => absurd h List.not_mem_nil
  | succ fuel ih =>
    intro p d id e h
    rw [groupRows_succ] at h
    rcases List.mem_cons.mp h with h | h
    · exact absurd h Row.noConfusion
    · split at h
      · next hexp =>
        rcases List.mem_append.mp h with h | h
        · -- a session below a child `c`: the groups from `p` down are `p` and those from `c` down
          obtain ⟨c, hc, h⟩ := List.mem_flatMap.mp h
          obtain ⟨hcp, hpc, hdc⟩ := mem_children_iff.mp hc
          obtain ⟨s, hs, rfl, hne, hsc, he, hway⟩ := ih h
          refine ⟨s, hs, rfl, hne, .inr ?_, by omega, fun a ha hpa => ?_⟩
          · rcases hsc with hsc | hsc
            · exact hsc ▸ hpc
            · exact hpc.trans hsc
          · rcases hpa with rfl | hpa
            · exact ⟨hexp, .inl rfl⟩
            · rcases along_total ha (hsc.imp_left Eq.symm) with rfl | hac | hca
              · exact ⟨(hway _ ha (.inl rfl)).1, .inr hcp⟩
              · exact absurd (hac.depthOf_le) (by have := hpa.depthOf_le; omega)
              · obtain ⟨hx, hm⟩ := hway a ha (.inr hca)
                refine ⟨hx, .inr ?_⟩
                rcases hm with rfl | hm
                · exact hcp
                · exact hm
        · -- a member of `p` itself: the only group from `p` down to it is `p`
          obtain ⟨id', hid, h⟩ := List.mem_map.mp h
          obtain ⟨rfl, rfl⟩ := Row.session.inj h
          obtain ⟨s, hs, rfl, hne, hsp⟩ := exists_of_mem_members hid
          refine ⟨s, hs, rfl, hne, .inl hsp, by rw [hsp]; omega, fun a ha hpa => ?_⟩
          rw [hsp] at ha
          rcases hpa with rfl | hpa
          · exact ⟨hexp, .inl rfl⟩
          · rcases ha with rfl | hap
            · exact absurd hpa (IsAncestor.irrefl _)
            · exact absurd (hpa.trans hap) (IsAncestor.irrefl _)
      · exact absurd h List.not_mem_nil

end Rows

/-! ### No row twice -/

section Distinct

variable {ss : List Session} {t : GroupTree} (hids : (ss.map (·.id)).Nodup)
include hids

theorem eq_of_id_eq {s s' : Session} (hs : s ∈ ss) (hs' : s' ∈ ss) (h : s.id = s'.id) : s = s' :=
  List.inj_on_of_nodup_map hids hs hs' h

theorem disjoint_groupRows {f₁ f₂ d₁ d₂ : Nat} {p₁ p₂ : String} (hne : p₁ ≠ p₂)
    (hd : depthOf p₁ = depthOf p₂) :
    List.Disjoint (groupRows ss t f₁ p₁ d₁) (groupRows ss t f₂ p₂ d₂) := by
  intro x h₁ h₂
  cases x with
  | group q n e =>
    have hq₁ := (mem_groupRows_group h₁).1
    have hq₂ := (mem_groupRows_group h₂).1
    refine hne (eq_of_along_of_depthOf_eq (q := q) ?_ ?_ hd)
    · rcases hq₁ with rfl | ⟨h, -⟩
      · exact .inl rfl
      · exact .inr h
    · rcases hq₂ with rfl | ⟨h, -⟩
      · exact .inl rfl
      · exact .inr h
  | session id e =>
    obtain ⟨s₁, hs₁, hid₁, -, hp₁, -⟩ := mem_groupRows_session h₁
    obtain ⟨s₂, hs₂, hid₂, -, hp₂, -⟩ := mem_groupRows_session h₂
    obtain rfl := eq_of_id_eq hids hs₁ hs₂ (hid₁.trans hid₂.symm)
    exact hne (eq_of_along_of_depthOf_eq (hp₁.imp_left Eq.symm) (hp₂.imp_left Eq.symm) hd)

theorem nodup_groupRows (fuel : Nat) : ∀ p d, (groupRows ss t fuel p d).Nodup := by
  induction fuel with
  | zero => exact fun _ _ => List.nodup_nil
  | succ fuel ih =>
    intro p d
    rw [groupRows_succ]
    split
    · -- the children's walks are disjoint, and none holds `p`'s row or one of `p`'s members
      have hbelow : (((t.children p).flatMap fun c => groupRows ss t fuel c (d + 1))).Nodup := by
        refine List.nodup_flatMap.mpr ⟨fun c _ => ih c (d + 1), ?_⟩
        refine (t.nodup_children p).imp_of_mem fun hc₁ hc₂ hne => ?_
        exact disjoint_groupRows hids hne (by
          rw [(mem_children_iff.mp hc₁).2.2, (mem_children_iff.mp hc₂).2.2])
      have hown : ((members ss p).map (Row.session · (d + 1))).Nodup :=
        (nodup_members hids p).map fun _ _ h => (Row.session.inj h).1
      refine List.nodup_cons.mpr ⟨fun h => ?_, List.nodup_append.mpr ⟨hbelow, hown, ?_⟩⟩
      · rcases List.mem_append.mp h with h | h
        · obtain ⟨c, hc, h⟩ := List.mem_flatMap.mp h
          have hpc := (mem_children_iff.mp hc).2.1
          rcases (mem_groupRows_group h).1 with rfl | ⟨hcp, -⟩
          · exact IsAncestor.irrefl _ hpc
          · exact IsAncestor.irrefl _ (hpc.trans hcp)
        · obtain ⟨_, -, h⟩ := List.mem_map.mp h
          exact Row.noConfusion h
      · rintro x hx y hy rfl
        obtain ⟨id, hid, rfl⟩ := List.mem_map.mp hy
        obtain ⟨s₁, hs₁, rfl, -, hsp⟩ := exists_of_mem_members hid
        obtain ⟨c, hc, hx⟩ := List.mem_flatMap.mp hx
        obtain ⟨s₂, hs₂, hid₂, -, hsc, -⟩ := mem_groupRows_session hx
        obtain rfl := eq_of_id_eq hids hs₂ hs₁ hid₂
        have hpc := (mem_children_iff.mp hc).2.1
        rw [hsp] at hsc
        rcases hsc with rfl | hcp
        · exact IsAncestor.irrefl _ hpc
        · exact IsAncestor.irrefl _ (hpc.trans hcp)
    · exact List.nodup_singleton _

theorem nodup_buildRows : (buildRows ss t).Nodup := by
  rw [buildRows_eq_walk]
  have hloose : ((sortSessions (ss.filter (·.groupPath.isEmpty))).map
      fun s => Row.session s.id 0).Nodup := by
    have hsub : ∀ x ∈ sortSessions (ss.filter (·.groupPath.isEmpty)), x ∈ ss := fun x hx =>
      (List.mem_filter.mp (List.mem_mergeSort.mp hx)).1
    refine List.Nodup.map_on (fun x hx y hy h => eq_of_id_eq hids (hsub x hx) (hsub y hy)
      (Row.session.inj h).1) ?_
    exact (List.mergeSort_perm _ _).nodup_iff.mpr ((List.Nodup.of_map _ hids).filter _)
  have hroots : (t.roots.flatMap (walk ss t · 0)).Nodup := by
    refine List.nodup_flatMap.mpr ⟨fun r _ => nodup_groupRows hids _ r 0, ?_⟩
    refine t.nodup_roots.imp_of_mem fun hr₁ hr₂ hne => ?_
    exact disjoint_groupRows hids hne (by
      rw [(mem_roots_iff.mp hr₁).2, (mem_roots_iff.mp hr₂).2])
  refine List.nodup_append.mpr ⟨hloose, hroots, ?_⟩
  -- a session without a group is no session of a walk, whose sessions all have a group
  rintro x hx y hy rfl
  obtain ⟨s₁, hs₁, rfl⟩ := List.mem_map.mp hx
  obtain ⟨hs₁, hempty⟩ := List.mem_filter.mp (List.mem_mergeSort.mp hs₁)
  obtain ⟨r, -, hy⟩ := List.mem_flatMap.mp hy
  obtain ⟨s₂, hs₂, hid, hne, -⟩ := mem_groupRows_session hy
  obtain rfl := eq_of_id_eq hids hs₂ hs₁ hid
  exact hne (String.isEmpty_iff.mp hempty)

end Distinct

/-! ### Depths and which sessions show -/

section Shown

variable {ss : List Session} {t : GroupTree}

theorem depth_of_group_mem_buildRows {q n : String} {e : Nat} (h : Row.group q n e ∈ buildRows ss t) :
    e = depthOf q := by
  rw [buildRows_eq_walk] at h
  rcases List.mem_append.mp h with h | h
  · obtain ⟨_, -, h⟩ := List.mem_map.mp h
    exact Row.noConfusion h
  · obtain ⟨r, hr, h⟩ := List.mem_flatMap.mp h
    have := (mem_groupRows_group h).2
    rw [(mem_roots_iff.mp hr).2] at this
    omega

variable (hids : (ss.map (·.id)).Nodup)
include hids

theorem depth_of_session_mem_buildRows {s : Session} (hs : s ∈ ss) {e : Nat}
    (h : Row.session s.id e ∈ buildRows ss t) :
    e = if s.groupPath = "" then 0 else depthOf s.groupPath + 1 := by
  rw [buildRows_eq_walk] at h
  rcases List.mem_append.mp h with h | h
  · obtain ⟨s', hs', h⟩ := List.mem_map.mp h
    obtain ⟨hid, rfl⟩ := Row.session.inj h
    obtain ⟨hs', hempty⟩ := List.mem_filter.mp (List.mem_mergeSort.mp hs')
    obtain rfl := eq_of_id_eq hids hs' hs hid
    rw [if_pos (String.isEmpty_iff.mp hempty)]
  · obtain ⟨r, hr, h⟩ := List.mem_flatMap.mp h
    obtain ⟨s', hs', hid, hne, -, he, -⟩ := mem_groupRows_session h
    obtain rfl := eq_of_id_eq hids hs' hs hid
    rw [if_neg hne]
    rw [(mem_roots_iff.mp hr).2] at he
    omega

theorem session_shown_iff {s : Session} (hs : s ∈ ss) :
    (∃ e, Row.session s.id e ∈ buildRows ss t) ↔
      s.groupPath = "" ∨ ∀ a, (a = s.groupPath ∨ IsAncestor a s.groupPath) →
        a ∈ t.groups.map (·.path) ∧ t.isExpanded a = true := by
  constructor
  · rintro ⟨e, h⟩
    rw [buildRows_eq_walk] at h
    rcases List.mem_append.mp h with h | h
    · obtain ⟨s', hs', h⟩ := List.mem_map.mp h
      obtain ⟨hid, -⟩ := Row.session.inj h
      obtain ⟨hs', hempty⟩ := List.mem_filter.mp (List.mem_mergeSort.mp hs')
      obtain rfl := eq_of_id_eq hids hs' hs hid
      exact .inl (String.isEmpty_iff.mp hempty)
    · -- the walk from the root on the way to the session's group passes every group above it
      obtain ⟨r, hr, h⟩ := List.mem_flatMap.mp h
      obtain ⟨hrp, hr0⟩ := mem_roots_iff.mp hr
      obtain ⟨s', hs', hid, -, hsr, -, hway⟩ := mem_groupRows_session h
      obtain rfl := eq_of_id_eq hids hs' hs hid
      refine .inr fun a ha => ?_
      rcases along_total ha (hsr.imp_left Eq.symm) with rfl | har | hra
      · exact ⟨hrp, (hway a ha (.inl rfl)).1⟩
      · exact absurd har.depthOf_le (by omega)
      · obtain ⟨hx, hm⟩ := hway a ha (.inr hra)
        rcases hm with rfl | hm
        · exact ⟨hrp, hx⟩
        · exact ⟨hm, hx⟩
  · rintro (hempty | hway)
    · refine ⟨0, List.mem_append_left _ (List.mem_map.mpr ⟨s, ?_, rfl⟩)⟩
      simp [sortSessions, hs, hempty]
    · by_cases hne : s.groupPath = ""
      · refine ⟨0, List.mem_append_left _ (List.mem_map.mpr ⟨s, ?_, rfl⟩)⟩
        simp [sortSessions, hs, hne]
      · exact session_mem_buildRows hs (fun _ a ha => (hway a ha).1) fun a ha => (hway a ha).2

end Shown

/-! ### The rows, all together -/

theorem pairwise_sortSessions {l : List Session} (hids : (l.map (·.id)).Nodup) :
    (sortSessions l).Pairwise Session.Precedes := by
  have hsorted := List.pairwise_mergeSort memberBefore_trans memberBefore_total l
  -- distinct ids make the order strict
  have hdistinct : (sortSessions l).Pairwise fun a b => a.id ≠ b.id :=
    List.pairwise_map.mp (((List.mergeSort_perm l _).map _).nodup_iff.mpr hids)
  exact (hsorted.and hdistinct).imp fun h => precedes_of_memberBefore h.1 h.2

/-- **What the session tree shows.** For sessions with distinct ids and a table with distinct
paths: the sessions without a group come first, by title then id, at depth 0, and then the walk
from each group without a slash, in display order. The walk from a group is its row and, only
if the group is unfolded, the walks of its children and then its members one level deeper, the
members being the list syncing gives the group, by title then id. No row comes twice; a group's
row sits at the depth of its path's slashes and a session's one level deeper than its group's;
and a session shows exactly when it has no group, or its group and every group above it are in
the table and unfolded. -/
theorem buildRows_shows {ss : List Session} {t : GroupTree} (hids : (ss.map (·.id)).Nodup)
    (hpaths : (t.groups.map (·.path)).Nodup) :
    (∃ loose : List Session, loose.Perm (ss.filter (·.groupPath.isEmpty)) ∧
        loose.Pairwise Session.Precedes ∧
        buildRows ss t =
          loose.map (fun s => Row.session s.id 0) ++ t.roots.flatMap (walk ss t · 0)) ∧
    (∀ p d, walk ss t p d =
        Row.group p (t.rowName p) d ::
          if t.isExpanded p then
            (t.children p).flatMap (walk ss t · (d + 1)) ++
              (members ss p).map (Row.session · (d + 1))
          else []) ∧
    (∀ p, ∃ ms : List Session,
        ms.Perm (ss.filter fun s => !s.groupPath.isEmpty && s.groupPath == p) ∧
          ms.Pairwise Session.Precedes ∧ members ss p = ms.map (·.id)) ∧
    (∀ g ∈ (t.syncSessions ss).groups, g.sessions = members ss g.path) ∧
    (buildRows ss t).Nodup ∧
    (∀ q n e, Row.group q n e ∈ buildRows ss t → e = depthOf q) ∧
    (∀ s ∈ ss, ∀ e, Row.session s.id e ∈ buildRows ss t →
        e = if s.groupPath = "" then 0 else depthOf s.groupPath + 1) ∧
    (∀ s ∈ ss, (∃ e, Row.session s.id e ∈ buildRows ss t) ↔
        s.groupPath = "" ∨ ∀ a, (a = s.groupPath ∨ IsAncestor a s.groupPath) →
          a ∈ t.groups.map (·.path) ∧ t.isExpanded a = true) := by
  have hloose : ((ss.filter (·.groupPath.isEmpty)).map (·.id)).Nodup :=
    ((List.filter_sublist (l := ss)).map _).nodup hids
  refine ⟨⟨_, List.mergeSort_perm _ _, pairwise_sortSessions hloose, buildRows_eq_walk ss t⟩,
    walk_eq, members_sorted hids, fun _ hg => sessions_of_mem_syncSessions hg,
    nodup_buildRows hids, fun _ _ _ h => depth_of_group_mem_buildRows h,
    fun _ hs _ h => depth_of_session_mem_buildRows hids hs h,
    fun _ hs => session_shown_iff hids hs⟩

/-- A session without a group, one in the unfolded group a, and one in a/b, folded. -/
def twoLevelSessions : List Session :=
  [{ id := "x", title := "loose", projectPath := "/p/x", createdAt := World.epoch },
   { id := "y", title := "top", projectPath := "/p/y", groupPath := "a", createdAt := World.epoch },
   { id := "z", title := "deep", projectPath := "/p/z", groupPath := "a/b",
     createdAt := World.epoch }]

/-- The groups a, unfolded, and a/b, folded. -/
def twoLevelTable : GroupTree :=
  ⟨[{ name := "a", path := "a" }, { name := "b", path := "a/b", expanded := false }], by decide⟩

theorem twoLevel_shows :
    (twoLevelSessions.map (·.id)).Nodup ∧ (twoLevelTable.groups.map (·.path)).Nodup ∧
    (∃ loose : List Session, loose.Perm (twoLevelSessions.filter (·.groupPath.isEmpty)) ∧
        loose.Pairwise Session.Precedes ∧
        buildRows twoLevelSessions twoLevelTable =
          loose.map (fun s => Row.session s.id 0) ++
            twoLevelTable.roots.flatMap (walk twoLevelSessions twoLevelTable · 0)) ∧
    (∀ p d, walk twoLevelSessions twoLevelTable p d =
        Row.group p (twoLevelTable.rowName p) d ::
          if twoLevelTable.isExpanded p then
            (twoLevelTable.children p).flatMap (walk twoLevelSessions twoLevelTable · (d + 1)) ++
              (members twoLevelSessions p).map (Row.session · (d + 1))
          else []) ∧
    (∀ p, ∃ ms : List Session,
        ms.Perm (twoLevelSessions.filter fun s => !s.groupPath.isEmpty && s.groupPath == p) ∧
          ms.Pairwise Session.Precedes ∧ members twoLevelSessions p = ms.map (·.id)) ∧
    (∀ g ∈ (twoLevelTable.syncSessions twoLevelSessions).groups,
        g.sessions = members twoLevelSessions g.path) ∧
    (buildRows twoLevelSessions twoLevelTable).Nodup ∧
    (∀ q n e, Row.group q n e ∈ buildRows twoLevelSessions twoLevelTable → e = depthOf q) ∧
    (∀ s ∈ twoLevelSessions, ∀ e, Row.session s.id e ∈ buildRows twoLevelSessions twoLevelTable →
        e = if s.groupPath = "" then 0 else depthOf s.groupPath + 1) ∧
    (∀ s ∈ twoLevelSessions,
      (∃ e, Row.session s.id e ∈ buildRows twoLevelSessions twoLevelTable) ↔
        s.groupPath = "" ∨ ∀ a, (a = s.groupPath ∨ IsAncestor a s.groupPath) →
          a ∈ twoLevelTable.groups.map (·.path) ∧ twoLevelTable.isExpanded a = true) := by
  have hids : (twoLevelSessions.map (·.id)).Nodup := by decide
  have hpaths := twoLevelTable.nodup
  exact ⟨hids, hpaths, buildRows_shows hids hpaths⟩

end GroupTree

end AgentDeck
