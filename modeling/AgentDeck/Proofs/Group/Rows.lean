import Mathlib
import AgentDeck.Proofs.Group.Paths

/-!
The visible rows against the table of groups.

Unfolding groups keeps the table's groups, their order and their members (`Unfolds`), so it only
adds rows. A session shows in the rows when its group and every group above it are in the table
and unfolded: the rows of the group with no slash on its way go down, one unfolded child at a
time, to its group's own rows.
-/

namespace AgentDeck

namespace GroupTree

/-! ### Unfolding more groups -/

/-- `t'` is `t` with some groups unfolded: the same groups in the same order, each keeping its
name, path, display order and members, and each unfolded group staying unfolded. -/
def Unfolds (t t' : GroupTree) : Prop :=
  ∃ f : Group → Group, t'.groups = t.groups.map f ∧
    ∀ g, (f g).path = g.path ∧ (f g).name = g.name ∧ (f g).order = g.order ∧
      (f g).sessions = g.sessions ∧ (g.expanded = true → (f g).expanded = true)

namespace Unfolds

variable {t t₁ t' : GroupTree}

theorem refl (t : GroupTree) : Unfolds t t :=
  ⟨id, by simp, fun _ => ⟨rfl, rfl, rfl, rfl, id⟩⟩

theorem trans (h₁ : Unfolds t t₁) (h₂ : Unfolds t₁ t') : Unfolds t t' := by
  obtain ⟨f, hf, hfg⟩ := h₁
  obtain ⟨k, hk, hkg⟩ := h₂
  refine ⟨k ∘ f, by rw [hk, hf, List.map_map], fun g => ?_⟩
  obtain ⟨h1, h2, h3, h4, h5⟩ := hfg g
  obtain ⟨k1, k2, k3, k4, k5⟩ := hkg (f g)
  exact ⟨k1.trans h1, k2.trans h2, k3.trans h3, k4.trans h4, fun he => k5 (h5 he)⟩

theorem paths (h : Unfolds t t') : t'.groups.map (·.path) = t.groups.map (·.path) := by
  obtain ⟨f, hf, hfg⟩ := h
  rw [hf, List.map_map]
  exact List.map_congr_left fun g _ => (hfg g).1

theorem size (h : Unfolds t t') : t'.size = t.size := by
  obtain ⟨f, hf, -⟩ := h
  simp [GroupTree.size, hf]

theorem children (h : Unfolds t t') (p : String) : t'.children p = t.children p := by
  simp only [GroupTree.children, h.paths]

theorem roots (h : Unfolds t t') : t'.roots = t.roots := by
  obtain ⟨f, hf, hfg⟩ := h
  have hfilter : (t.groups.map f).filter (fun g => !g.path.toList.contains '/') =
      (t.groups.filter fun g => !g.path.toList.contains '/').map f := by
    rw [List.filter_map]
    congr 1
    apply List.filter_congr
    intro g _
    simp [(hfg g).1]
  have hsort := List.map_mergeSort (l := t.groups.filter fun g => !g.path.toList.contains '/')
    (r := Group.before) (s := Group.before) (f := f)
    (fun a _ b _ => by simp [Group.before, (hfg a).1, (hfg a).2.2.1, (hfg b).1, (hfg b).2.2.1])
  simp only [GroupTree.roots, hf, hfilter, ← hsort, List.map_map]
  exact List.map_congr_left fun g _ => (hfg g).1

theorem isExpanded (h : Unfolds t t') {a : String} (ha : t.isExpanded a = true) :
    t'.isExpanded a = true := by
  obtain ⟨f, hf, hfg⟩ := h
  have hget : t'.get? a = (t.get? a).map f := by
    simp only [get?, hf, List.find?_map]
    congr 1
    apply List.find?_congr
    intro g _
    simp [(hfg g).1]
  unfold GroupTree.isExpanded at ha ⊢
  rw [hget]
  cases hg : t.get? a with
  | none => rfl
  | some g =>
    rw [hg] at ha
    exact (hfg g).2.2.2.2 ha

end Unfolds

theorem unfolds_setExpanded (t : GroupTree) (q : String) : Unfolds t (t.setExpanded q true) :=
  ⟨fun g => if g.path == q then { g with expanded := true } else g, rfl, fun g => by
    dsimp only
    split <;> simp⟩

theorem unfolds_expandTo (t : GroupTree) (p : String) : Unfolds t (t.expandTo p) := by
  unfold expandTo
  refine List.foldlRecOn (motive := fun t' => Unfolds t t') _ _ (Unfolds.refl t) ?_
  intro t' ht' _ _
  exact ht'.trans (unfolds_setExpanded t' _)

end GroupTree

/-! ### Where a session shows -/

open GroupTree

section Rows

variable {ss : List Session} {t : GroupTree}

theorem mem_groupRows_of_below {fuel : Nat} {path : String} {depth : Nat} {r : Row}
    (h : t.isExpanded path = true) {c : String} (hc : c ∈ t.children path)
    (hr : r ∈ groupRows ss t fuel c (depth + 1)) : r ∈ groupRows ss t (fuel + 1) path depth := by
  simp only [groupRows, h, Bool.not_true, Bool.false_eq_true, if_false]
  exact List.mem_cons_of_mem _ (List.mem_append_left _ (List.mem_flatMap.mpr ⟨c, hc, hr⟩))

theorem mem_groupRows_of_member {fuel : Nat} {path : String} {depth : Nat}
    (h : t.isExpanded path = true) {s : Session} (hs : s ∈ ss) (hp : s.groupPath = path)
    (hne : s.groupPath ≠ "") : Row.session s.id (depth + 1) ∈ groupRows ss t (fuel + 1) path depth := by
  simp only [groupRows, h, Bool.not_true, Bool.false_eq_true, if_false]
  refine List.mem_cons_of_mem _ (List.mem_append_right _ (List.mem_map.mpr ⟨s, ?_, rfl⟩))
  subst hp
  simp [sortSessions, hs, hne]

theorem session_mem_groupRows {s : Session} (hs : s ∈ ss) (hne : s.groupPath ≠ "")
    (hpaths : ∀ a, a = s.groupPath ∨ IsAncestor a s.groupPath → a ∈ t.groups.map (·.path))
    (hexp : ∀ a, a = s.groupPath ∨ IsAncestor a s.groupPath → t.isExpanded a = true)
    (fuel : Nat) :
    ∀ q depth, (q = s.groupPath ∨ IsAncestor q s.groupPath) →
      depthOf s.groupPath - depthOf q < fuel → ∃ d, Row.session s.id d ∈ groupRows ss t fuel q depth := by
  induction fuel with
  | zero => exact fun _ _ _ hf => absurd hf (Nat.not_lt_zero _)
  | succ fuel ih =>
    intro q depth hq hfuel
    rcases hq with rfl | hq
    · exact ⟨_, mem_groupRows_of_member (hexp _ (.inl rfl)) hs rfl hne⟩
    · obtain ⟨c, hqc, hdc, hc⟩ := exists_child_toward hq
      have hcp : depthOf c ≤ depthOf s.groupPath := by
        rcases hc with rfl | hc
        · exact le_rfl
        · have := hc.depthOf_le
          omega
      obtain ⟨d, hd⟩ := ih c (depth + 1) hc (by omega)
      exact ⟨d, mem_groupRows_of_below (hexp _ (.inr hq)) (mem_children (hpaths _ hc) hqc hdc) hd⟩

/-- A session shows in the rows when its group and every group above it are in the table and
unfolded. -/
theorem session_mem_buildRows {s : Session} (hs : s ∈ ss)
    (hpaths : s.groupPath ≠ "" →
      ∀ a, a = s.groupPath ∨ IsAncestor a s.groupPath → a ∈ t.groups.map (·.path))
    (hexp : ∀ a, a = s.groupPath ∨ IsAncestor a s.groupPath → t.isExpanded a = true) :
    ∃ d, Row.session s.id d ∈ buildRows ss t := by
  by_cases hne : s.groupPath = ""
  · -- a session without a group shows among the loose ones
    refine ⟨0, List.mem_append_left _ (List.mem_map.mpr ⟨s, ?_, rfl⟩)⟩
    simp [sortSessions, hs, hne]
  · have hpaths := hpaths hne
    obtain ⟨r, hr0, hr⟩ := exists_root_toward s.groupPath
    have hbound := depthOf_lt_size hpaths
    obtain ⟨d, hd⟩ := session_mem_groupRows hs hne hpaths hexp (t.size + 1) r 0 hr (by omega)
    exact ⟨d, List.mem_append_right _ (List.mem_flatMap.mpr ⟨r, mem_roots (hpaths _ hr) hr0, hd⟩)⟩

theorem length_flatMap_le {α β : Type} {l : List α} {f g : α → List β}
    (h : ∀ a ∈ l, (f a).length ≤ (g a).length) : (l.flatMap f).length ≤ (l.flatMap g).length := by
  induction l with
  | nil => simp
  | cons a l ih =>
    simp only [List.flatMap_cons, List.length_append]
    exact Nat.add_le_add (h a List.mem_cons_self) (ih fun b hb => h b (List.mem_cons_of_mem _ hb))

theorem groupRows_ne_nil (fuel : Nat) (path : String) (depth : Nat) :
    groupRows ss t (fuel + 1) path depth ≠ [] := by
  simp only [groupRows]
  split <;> simp

theorem length_groupRows_le {t' : GroupTree} (h : Unfolds t t') (fuel : Nat) :
    ∀ path depth, (groupRows ss t fuel path depth).length ≤ (groupRows ss t' fuel path depth).length := by
  induction fuel with
  | zero => exact fun _ _ => le_rfl
  | succ fuel ih =>
    intro path depth
    cases he : t.isExpanded path
    · -- a folded group has its own row alone
      have hone : (groupRows ss t (fuel + 1) path depth).length = 1 := by
        simp [groupRows, he]
      rw [hone]
      exact List.length_pos_of_ne_nil (groupRows_ne_nil fuel path depth)
    · have he' := h.isExpanded he
      simp only [groupRows, he, he', h.children, Bool.not_true, Bool.false_eq_true, if_false,
        List.length_cons, List.length_append]
      have hbelow := length_flatMap_le (l := t.children path) fun c _ => ih c (depth + 1)
      omega

theorem length_buildRows_le {t' : GroupTree} (h : Unfolds t t') :
    (buildRows ss t).length ≤ (buildRows ss t').length := by
  simp only [buildRows, h.roots, h.size, List.length_append]
  have hgroups := length_flatMap_le (l := t.roots) fun r _ =>
    @length_groupRows_le ss _ _ h (t.size + 1) r 0
  omega

end Rows


end AgentDeck
