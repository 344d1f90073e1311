import Mathlib
import AgentDeck.Proofs.Group.Parents

/-!
Creating groups and syncing members, on tables closed under parents.

A table is closed under parents when the parent of each of its groups is in it too
(`ParentClosed`), which is the same as holding every group above each of its groups (`Closed`).
Creating a group walks up from its path, parent after parent, and stops at the first group the
table has. On a closed table every group above that one is there already, so the walk adds
exactly the path and the groups above it that were missing: after the groups the table had,
which stay as they were, each new one unfolded, first in display order and named after the last
piece of its path. The table stays closed, and creating the same group again changes nothing.

Syncing creates the groups the sessions name in the same way, then gives every group the
sessions at its path, by title and then id. A session without a group path is in no group, so a
group at the empty path (the parent of `/x`) is given no session, not even those without a group
(`empty_path_group_lists_no_session`).
-/

namespace AgentDeck

@[simp] theorem Group.ofPath_path (q : String) : (Group.ofPath q).path = q := rfl

theorem Group.ofPath_name (q : String) :
    (Group.ofPath q).name.toList = (q.toList.reverse.takeWhile (· != '/')).reverse := by
  have hpieces : ∀ l : List Char, '/' ∉ l → ∀ c ∈ l.reverse, (c != '/') = true := fun l hl c hc =>
    bne_iff_ne.mpr fun h => hl (List.mem_reverse.mp (h ▸ hc))
  cases hsplit : Text.splitLast '/' q.toList with
  | none =>
    have hq := Text.not_mem_of_splitLast_eq_none hsplit
    simp only [Group.ofPath, hsplit, List.takeWhile_eq_self_iff.mpr (hpieces _ hq),
      List.reverse_reverse]
  | some cut =>
    obtain ⟨hq, hlast⟩ := Text.splitLast_eq_some hsplit
    simp only [Group.ofPath, hsplit, String.toList_ofList]
    rw [hq, List.reverse_append, List.reverse_cons, List.append_assoc,
      List.takeWhile_append_of_pos (hpieces _ hlast)]
    simp

namespace GroupTree

/-- A table in which the parent of every group is a group too. -/
def ParentClosed (t : GroupTree) : Prop :=
  ∀ q ∈ t.groups.map (·.path), ∀ p, parentPath q = some p → p ∈ t.groups.map (·.path)

theorem isAncestor_iff_of_parentPath {q p : String} (h : parentPath q = some p) (a : String) :
    IsAncestor a q ↔ a = p ∨ IsAncestor a p := by
  obtain ⟨⟨up, last⟩, hsplit, rfl⟩ := Option.map_eq_some_iff.mp h
  exact isAncestor_iff_of_splitLast hsplit a

theorem exists_parentPath_of_isAncestor {a q : String} (h : IsAncestor a q) :
    ∃ p, parentPath q = some p := by
  obtain ⟨r, hr⟩ := h
  refine Option.ne_none_iff_exists'.mp fun hnone => parentPath_eq_none_iff.mp hnone ?_
  rw [hr]
  simp

theorem parentClosed_iff_closed {t : GroupTree} : t.ParentClosed ↔ t.Closed := by
  constructor
  · intro h
    -- up from a group one parent at a time, by induction on the length of its path
    suffices hlen : ∀ n, ∀ q ∈ t.groups.map (·.path), q.toList.length < n →
        ∀ a, IsAncestor a q → a ∈ t.groups.map (·.path) from
      fun q hq => hlen _ q hq (Nat.lt_succ_self _)
    intro n
    induction n with
    | zero => exact fun _ _ hn => absurd hn (Nat.not_lt_zero _)
    | succ n ih =>
      intro q hq hn a ha
      obtain ⟨p, hp⟩ := exists_parentPath_of_isAncestor ha
      have hpq := (parentPath_eq_some_iff_isAncestor.mp hp).1
      rcases (isAncestor_iff_of_parentPath hp a).mp ha with rfl | hap
      · exact h q hq a hp
      · exact ih p (h q hq p hp) (by have := hpq.length_lt; omega) a hap
  · intro h q hq p hp
    exact h q hq p (parentPath_eq_some_iff_isAncestor.mp hp).1

/-! ### The walk up from a path -/

theorem pairwise_lineage (fuel : Nat) :
    ∀ q : List Char, (lineage fuel q).Pairwise fun a b => IsAncestor b a := by
  induction fuel with
  | zero => exact fun _ => List.Pairwise.nil
  | succ fuel ih =>
    intro q
    rw [lineage_succ]
    split
    · next up last hsplit =>
      have hanc := isAncestor_iff_of_splitLast (p := String.ofList q)
        (by rwa [String.toList_ofList])
      refine List.pairwise_cons.mpr ⟨fun b hb => ?_, ih up⟩
      rcases along_of_mem_lineage fuel up b hb with rfl | h
      · exact (hanc _).mpr (.inl rfl)
      · exact (hanc _).mpr (.inr h)
    · exact List.pairwise_singleton _ _

theorem mem_lineage_iff {fuel : Nat} {q : List Char} (hq : q.length < fuel) (a : String) :
    a ∈ lineage fuel q ↔ a = String.ofList q ∨ IsAncestor a (String.ofList q) := by
  refine ⟨along_of_mem_lineage fuel q a, ?_⟩
  induction fuel generalizing q with
  | zero => exact absurd hq (Nat.not_lt_zero _)
  | succ fuel ih =>
    rw [lineage_succ]
    rintro (rfl | ha)
    · exact List.mem_cons_self
    · refine List.mem_cons_of_mem _ ?_
      split
      · next up last hsplit =>
        have hq' := (Text.splitLast_eq_some hsplit).1
        have hanc := isAncestor_iff_of_splitLast (p := String.ofList q)
          (by rwa [String.toList_ofList])
        refine ih (by rw [hq'] at hq; simp at hq; omega) ((hanc a).mp ha)
      · next hsplit =>
        exact absurd ha (not_isAncestor_of_splitLast (by rwa [String.toList_ofList]) a)

/-! ### Creating a group -/

theorem createChain_eq {ps : List String} (hnd : ps.Nodup) :
    ∀ {t : GroupTree},
      ps.Pairwise (fun a b => a ∈ t.groups.map (·.path) → b ∈ t.groups.map (·.path)) →
      (createChain t ps).groups =
        t.groups ++ (ps.filter fun q => q ∉ t.groups.map (·.path)).map Group.ofPath := by
  induction ps with
  | nil => intro t _; simp [createChain]
  | cons q qs ih =>
    intro t hup
    obtain ⟨hq, hqs⟩ := List.nodup_cons.mp hnd
    obtain ⟨hhead, htail⟩ := List.pairwise_cons.mp hup
    rw [createChain_cons]
    split
    · next hin =>
      -- the walk stops at `q`, and every path after it is in the table already
      have hin := (get?_isSome_iff t q).mp hin
      have hnone : (q :: qs).filter (fun a => a ∉ t.groups.map (·.path)) = [] := by
        refine List.filter_eq_nil_iff.mpr fun a ha => ?_
        rcases List.mem_cons.mp ha with rfl | ha
        · simpa using hin
        · simpa using hhead a ha hin
      rw [hnone]
      simp
    · next hout =>
      have hout : q ∉ t.groups.map (·.path) := fun h => hout ((get?_isSome_iff t q).mpr h)
      -- the paths after `q` are not `q`, so the new group leaves their membership as it was
      have hput : ∀ a ∈ qs, a ∈ (t.put (Group.ofPath q)).groups.map (·.path) ↔
          a ∈ t.groups.map (·.path) := fun a ha => by
        rw [mem_paths_put, Group.ofPath_path]
        exact or_iff_left fun h => hq (h ▸ ha)
      have hfilter : qs.filter (fun a => a ∉ (t.put (Group.ofPath q)).groups.map (·.path)) =
          qs.filter fun a => a ∉ t.groups.map (·.path) :=
        List.filter_congr fun a ha => by simp only [hput a ha]
      rw [ih hqs (htail.imp_of_mem fun ha hb hab h => (hput _ hb).mpr (hab ((hput _ ha).mp h))),
        hfilter, groups_put_of_not_mem (by simpa using hout),
        List.filter_cons_of_pos (by simpa using hout)]
      simp

theorem create_fst_eq (t : GroupTree) (p : String) :
    (t.create p).1 = createChain t (lineage (p.length + 1) p.toList) := by
  unfold create
  split
  · next g hg =>
    -- the walk up starts at `p`, which the table has
    rw [lineage_succ, String.ofList_toList, createChain_cons, if_pos (by rw [hg]; rfl)]
  · rfl

theorem create_of_get? {t : GroupTree} {p : String} {g : Group} (h : t.get? p = some g) :
    t.create p = (t, g) := by
  unfold create
  rw [h]

theorem mem_created_iff (t : GroupTree) (p q : String) :
    q ∈ (lineage (p.length + 1) p.toList).filter (fun a => a ∉ t.groups.map (·.path)) ↔
      (q = p ∨ IsAncestor q p) ∧ q ∉ t.groups.map (·.path) := by
  rw [List.mem_filter, mem_lineage_iff (by simp [String.length_toList]), String.ofList_toList,
    decide_eq_true_iff]

section Closed

variable {t : GroupTree} (h : t.Closed)
include h

theorem groups_create (p : String) :
    (t.create p).1.groups = t.groups ++
      ((lineage (p.length + 1) p.toList).filter fun q => q ∉ t.groups.map (·.path)).map
        Group.ofPath := by
  rw [create_fst_eq, createChain_eq (nodup_lineage _ _)
    ((pairwise_lineage _ _).imp fun hba ha => h _ ha _ hba)]

theorem get?_create (p : String) : (t.create p).1.get? p = some (t.create p).2 := by
  cases hg : t.get? p with
  | some g => rw [create_of_get? hg]; exact hg
  | none =>
    have hout : p ∉ t.groups.map (·.path) := fun hp => by
      simpa [hg] using (get?_isSome_iff t p).mpr hp
    obtain ⟨rest, hl⟩ : ∃ rest, lineage (p.length + 1) p.toList = p :: rest :=
      ⟨_, by rw [lineage_succ, String.ofList_toList]⟩
    have hsnd : (t.create p).2 = Group.ofPath p := by
      unfold create
      rw [hg]
    have hnone : t.groups.find? (·.path == p) = none := hg
    have hhead : (p :: rest).filter (fun a => a ∉ t.groups.map (·.path)) =
        p :: rest.filter fun a => a ∉ t.groups.map (·.path) :=
      List.filter_cons_of_pos (by simpa using hout)
    -- the first group added is the one at `p`
    simp only [get?, hsnd, groups_create h, hl, hhead, List.map_cons, List.find?_append, hnone,
      Option.none_or, List.find?_cons, Group.ofPath_path, beq_self_eq_true]

theorem create_create (p : String) : (t.create p).1.create p = t.create p :=
  create_of_get? (get?_create h p)

theorem createFor_extends (s : Session) : ∃ new, (t.createFor s).groups = t.groups ++ new := by
  unfold createFor
  split
  · exact ⟨[], (List.append_nil _).symm⟩
  · exact ⟨_, groups_create h _⟩

end Closed

/-! ### Syncing members -/

theorem syncSessions_groups (t : GroupTree) (ss : List Session) :
    (t.syncSessions ss).groups =
      (ss.foldl createFor t).groups.map fun g => { g with sessions := members ss g.path } := rfl

theorem foldl_createFor_extends (ss : List Session) :
    ∀ {t : GroupTree}, t.Closed → ∃ new, (ss.foldl createFor t).groups = t.groups ++ new := by
  induction ss with
  | nil => exact fun _ => ⟨[], by simp⟩
  | cons s ss ih =>
    intro t h
    obtain ⟨new₁, h₁⟩ := createFor_extends h s
    have hclosed : (t.createFor s).Closed := closed_foldl_createFor h [s]
    obtain ⟨new₂, h₂⟩ := ih hclosed
    exact ⟨new₁ ++ new₂, by rw [List.foldl_cons, h₂, h₁, List.append_assoc]⟩

theorem exists_of_mem_syncSessions {t : GroupTree} (h : t.Closed) (ss : List Session)
    {g : Group} (hg : g ∈ t.groups) :
    ∃ g' ∈ (t.syncSessions ss).groups, { g' with sessions := g.sessions } = g := by
  obtain ⟨new, hnew⟩ := foldl_createFor_extends ss h
  refine ⟨{ g with sessions := members ss g.path }, ?_, rfl⟩
  rw [syncSessions_groups, hnew]
  exact List.mem_map_of_mem (List.mem_append_left _ hg)

theorem members_by_title_id (ss : List Session) (path : String) :
    ∃ ms : List Session, ms.Perm (ss.filter fun s => s.groupPath ≠ "" ∧ s.groupPath = path) ∧
      ms.Pairwise (fun a b => toLex (a.title, a.id) ≤ toLex (b.title, b.id)) ∧
      members ss path = ms.map (·.id) := by
  refine ⟨_, (List.mergeSort_perm _ _).trans (List.Perm.of_eq (List.filter_congr fun s _ => ?_)),
    pairwise_mergeSort_of_iff _ (fun a b => by rw [memberBefore_iff, Prod.Lex.toLex_le_toLex]) _,
    rfl⟩
  rw [Bool.eq_iff_iff]
  simp [String.isEmpty_eq_false_iff]

/-! ### Creating and syncing, all together -/

theorem paths_map_ofPath (qs : List String) : (qs.map Group.ofPath).map (·.path) = qs := by
  simp [List.map_map, Function.comp_def]

/-- **Creating and syncing on a table closed under parents.** Creating `p` keeps the groups the
table had, as they were and in their order, and adds after them, once each, exactly `p` and the
groups above `p` that were missing: each unfolded, first in display order, without members and
named after the last piece of its path. It answers the group the table then has at `p`, keeps
the table closed under parents, and creating `p` again changes nothing. Syncing keeps the table
closed under parents and keeps each of its groups but for the member list, which it sets to the
ids of the sessions whose group path is the group's, by title and then id; a session without a
group path is a member of no group. -/
theorem create_and_sync_on_parentClosed (t : GroupTree) (h : t.ParentClosed) (p : String)
    (ss : List Session) :
    (∃ new : List Group, (t.create p).1.groups = t.groups ++ new ∧ (new.map (·.path)).Nodup ∧
      (∀ q, q ∈ new.map (·.path) ↔ (q = p ∨ IsAncestor q p) ∧ q ∉ t.groups.map (·.path)) ∧
      ∀ g ∈ new, g.name.toList = (g.path.toList.reverse.takeWhile (· != '/')).reverse ∧
        g.expanded = true ∧ g.order = 0 ∧ g.sessions = []) ∧
    (t.create p).1.get? p = some (t.create p).2 ∧
    (t.create p).1.ParentClosed ∧
    (t.create p).1.create p = t.create p ∧
    (t.syncSessions ss).ParentClosed ∧
    (∀ g ∈ t.groups, ∃ g' ∈ (t.syncSessions ss).groups, { g' with sessions := g.sessions } = g) ∧
    ∀ g ∈ (t.syncSessions ss).groups, ∃ ms : List Session,
      ms.Perm (ss.filter fun s => s.groupPath ≠ "" ∧ s.groupPath = g.path) ∧
      ms.Pairwise (fun a b => toLex (a.title, a.id) ≤ toLex (b.title, b.id)) ∧
      g.sessions = ms.map (·.id) := by
  have hc := parentClosed_iff_closed.mp h
  refine ⟨⟨_, groups_create hc p, ?_, fun q => ?_, fun g hg => ?_⟩, get?_create hc p,
    parentClosed_iff_closed.mpr (closed_create hc p), create_create hc p,
    parentClosed_iff_closed.mpr (closed_syncSessions hc ss),
    fun g hg => exists_of_mem_syncSessions hc ss hg, fun g hg => ?_⟩
  · -- the new paths are the missing ones of the walk up, which meets no path twice
    rw [paths_map_ofPath]
    exact (nodup_lineage _ _).filter _
  · rw [paths_map_ofPath]
    exact mem_created_iff t p q
  · obtain ⟨q, -, rfl⟩ := List.mem_map.mp hg
    exact ⟨Group.ofPath_name q, rfl, rfl, rfl⟩
  · obtain ⟨ms, hperm, hsorted, hms⟩ := members_by_title_id ss g.path
    exact ⟨ms, hperm, hsorted, (sessions_of_mem_syncSessions hg).trans hms⟩

/-- The group `work`, alone. -/
def workTable : GroupTree := ⟨[{ name := "work", path := "work" }], by decide⟩

/-- A session in the group `/x`, whose parent is the empty path. -/
def deepSession : Session :=
  { id := "x", title := "deep", projectPath := "/p/x", groupPath := "/x", createdAt := World.epoch }

/-- A session in no group. -/
def looseSession : Session :=
  { id := "y", title := "loose", projectPath := "/p/y", createdAt := World.epoch }

def rootedPair : List Session := [deepSession, looseSession]

theorem work_create_and_sync :
    workTable.ParentClosed ∧
    (∃ new : List Group, (workTable.create "work/frontend/web").1.groups = workTable.groups ++ new ∧
      (new.map (·.path)).Nodup ∧
      (∀ q, q ∈ new.map (·.path) ↔ (q = "work/frontend/web" ∨ IsAncestor q "work/frontend/web") ∧
        q ∉ workTable.groups.map (·.path)) ∧
      ∀ g ∈ new, g.name.toList = (g.path.toList.reverse.takeWhile (· != '/')).reverse ∧
        g.expanded = true ∧ g.order = 0 ∧ g.sessions = []) ∧
    (workTable.create "work/frontend/web").1.get? "work/frontend/web" =
      some (workTable.create "work/frontend/web").2 ∧
    (workTable.create "work/frontend/web").1.ParentClosed ∧
    (workTable.create "work/frontend/web").1.create "work/frontend/web" =
      workTable.create "work/frontend/web" ∧
    (workTable.syncSessions rootedPair).ParentClosed ∧
    (∀ g ∈ workTable.groups, ∃ g' ∈ (workTable.syncSessions rootedPair).groups,
      { g' with sessions := g.sessions } = g) ∧
    ∀ g ∈ (workTable.syncSessions rootedPair).groups, ∃ ms : List Session,
      ms.Perm (rootedPair.filter fun s => s.groupPath ≠ "" ∧ s.groupPath = g.path) ∧
      ms.Pairwise (fun a b => toLex (a.title, a.id) ≤ toLex (b.title, b.id)) ∧
      g.sessions = ms.map (·.id) :=
  have h : workTable.ParentClosed := parentClosed_iff_closed.mpr (closed_of_flat (by decide))
  ⟨h, create_and_sync_on_parentClosed workTable h "work/frontend/web" rootedPair⟩

/-- Syncing gives no member to the group at the empty path, made as the parent of `/x`, though a
session has the empty path as its group path. -/
theorem empty_path_group_lists_no_session :
    ¬ ∀ g ∈ (({} : GroupTree).syncSessions rootedPair).groups, ∃ ms : List Session,
      ms.Perm (rootedPair.filter fun s => s.groupPath = g.path) ∧ g.sessions = ms.map (·.id) := by
  intro hall
  have hclosed : (({} : GroupTree).syncSessions rootedPair).Closed :=
    closed_syncSessions (closed_of_flat (by simp)) _
  -- syncing creates `/x`, and with it its parent, the empty path
  have hx := mem_paths_syncSessions (show deepSession ∈ rootedPair from List.mem_cons_self)
    (by decide) ({} : GroupTree)
  obtain ⟨g, hg, hgp⟩ := List.mem_map.mp (hclosed _ hx "" ⟨['x'], by decide⟩)
  obtain ⟨ms, hperm, hms⟩ := hall g hg
  have hnone : g.sessions = [] := by
    rw [sessions_of_mem_syncSessions hg, hgp, members_empty]
  have hloose : rootedPair.filter (fun s => s.groupPath = g.path) = [looseSession] := by
    rw [hgp]
    decide
  rw [hloose, List.perm_singleton] at hperm
  rw [hnone, hperm] at hms
  simp at hms

end GroupTree

end AgentDeck
