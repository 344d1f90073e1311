import Mathlib
import AgentDeck.Engine.View

/-!
The derived parts of the view: the members of each group and the visible rows.

Both are computed from the sessions, and read of a session only its id, title and group path,
its `viewKey`: lists of sessions with the same keys give the same members and the same rows.
A group lists the sessions at its path by title and then id; a session without a group path is
listed by no group. Creating the groups that sessions name keeps every path the table had, and
folding groups in or out keeps every group's path and members.
-/

namespace AgentDeck

/-- What the view reads of a session: its id, title and group path. -/
def Session.viewKey (s : Session) : String × String × String := (s.id, s.title, s.groupPath)

/-- Listed before, within a group: by title, then by id. -/
def Session.Precedes (a b : Session) : Prop :=
  a.title < b.title ∨ (a.title = b.title ∧ a.id < b.id)

namespace GroupTree

/-! ### Members and rows read the keys alone -/

/-- `memberBefore` on keys. -/
def keyBefore (a b : String × String × String) : Bool :=
  a.2.1 < b.2.1 || (a.2.1 == b.2.1 && !(b.1 < a.1))

theorem map_viewKey_sortSessions (l : List Session) :
    (sortSessions l).map Session.viewKey = (l.map Session.viewKey).mergeSort keyBefore :=
  List.map_mergeSort fun _ _ _ _ => rfl

section Keys

variable {ss ss' : List Session} (h : ss.map Session.viewKey = ss'.map Session.viewKey)
include h

theorem sorted_ids_congr (p : String × String × String → Bool) {β : Type} (g : String → β) :
    (sortSessions (ss.filter fun s => p s.viewKey)).map (fun s => g s.id) =
      (sortSessions (ss'.filter fun s => p s.viewKey)).map (fun s => g s.id) := by
  have hkeys (l : List Session) :
      (sortSessions (l.filter fun s => p s.viewKey)).map (fun s => g s.id) =
        (((l.map Session.viewKey).filter p).mergeSort keyBefore).map fun k => g k.1 := by
    rw [List.filter_map, ← map_viewKey_sortSessions, List.map_map]
    rfl
  rw [hkeys, hkeys, h]

theorem members_congr (path : String) : members ss path = members ss' path :=
  sorted_ids_congr h (fun k => !k.2.2.isEmpty && k.2.2 == path) id

theorem groupRows_congr (t : GroupTree) (fuel : Nat) (path : String) (depth : Nat) :
    groupRows ss t fuel path depth = groupRows ss' t fuel path depth := by
  induction fuel generalizing path depth with
  | zero => rfl
  | succ fuel ih =>
    -- the groups below agree by induction, the group's own sessions by their keys
    have hown : (sortSessions (ss.filter fun s => !s.groupPath.isEmpty && s.groupPath == path)).map
          (fun s => Row.session s.id (depth + 1)) =
        (sortSessions (ss'.filter fun s => !s.groupPath.isEmpty && s.groupPath == path)).map
          (fun s => Row.session s.id (depth + 1)) :=
      sorted_ids_congr h (fun k => !k.2.2.isEmpty && k.2.2 == path) (Row.session · (depth + 1))
    simp only [groupRows, ih, hown]

theorem buildRows_congr (t : GroupTree) : buildRows ss t = buildRows ss' t := by
  have hloose : (sortSessions (ss.filter (·.groupPath.isEmpty))).map
        (fun s => Row.session s.id 0) =
      (sortSessions (ss'.filter (·.groupPath.isEmpty))).map (fun s => Row.session s.id 0) :=
    sorted_ids_congr h (fun k => k.2.2.isEmpty) (Row.session · 0)
  simp only [buildRows, hloose, groupRows_congr h]

end Keys

/-! ### The order of members -/

theorem memberBefore_iff (a b : Session) :
    memberBefore a b = true ↔ a.title < b.title ∨ (a.title = b.title ∧ a.id ≤ b.id) := by
  simp only [memberBefore, Bool.or_eq_true, Bool.and_eq_true, decide_eq_true_eq, beq_iff_eq,
    Bool.not_eq_true', decide_eq_false_iff_not, not_lt]

theorem memberBefore_trans (a b c : Session) (hab : memberBefore a b = true)
    (hbc : memberBefore b c = true) : memberBefore a c = true := by
  rw [memberBefore_iff] at hab hbc ⊢
  rcases hab with hab | ⟨hab, hab'⟩ <;> rcases hbc with hbc | ⟨hbc, hbc'⟩
  · exact .inl (hab.trans hbc)
  · exact .inl (hbc ▸ hab)
  · exact .inl (hab ▸ hbc)
  · exact .inr ⟨hab.trans hbc, hab'.trans hbc'⟩

theorem memberBefore_total (a b : Session) : (memberBefore a b || memberBefore b a) = true := by
  rw [Bool.or_eq_true, memberBefore_iff, memberBefore_iff]
  rcases lt_trichotomy a.title b.title with h | h | h
  · exact .inl (.inl h)
  · rcases le_total a.id b.id with h' | h'
    · exact .inl (.inr ⟨h, h'⟩)
    · exact .inr (.inr ⟨h.symm, h'⟩)
  · exact .inr (.inl h)

theorem precedes_of_memberBefore {a b : Session} (h : memberBefore a b = true)
    (hne : a.id ≠ b.id) : a.Precedes b := by
  rcases (memberBefore_iff a b).mp h with h | ⟨ht, hi⟩
  · exact .inl h
  · exact .inr ⟨ht, lt_of_le_of_ne hi hne⟩

/-- When no two sessions share an id, the members of the group at `path` are the ids of the
sessions there, by title and then id. -/
theorem members_sorted {ss : List Session} (hn : (ss.map (·.id)).Nodup) (path : String) :
    ∃ ms : List Session,
      ms.Perm (ss.filter fun s => !s.groupPath.isEmpty && s.groupPath == path) ∧
        ms.Pairwise Session.Precedes ∧ members ss path = ms.map (·.id) := by
  let here := ss.filter fun s => !s.groupPath.isEmpty && s.groupPath == path
  have hperm : (sortSessions here).Perm here := List.mergeSort_perm here _
  have hsorted := List.pairwise_mergeSort memberBefore_trans memberBefore_total here
  -- distinct ids make the order strict
  have hdistinct : (sortSessions here).Pairwise fun a b => a.id ≠ b.id := by
    have hhere : (here.map (·.id)).Nodup := ((List.filter_sublist (l := ss)).map _).nodup hn
    exact List.pairwise_map.mp ((hperm.map _).nodup_iff.mpr hhere)
  refine ⟨sortSessions here, hperm, ?_, rfl⟩
  exact (hsorted.and hdistinct).imp fun h => precedes_of_memberBefore h.1 h.2

/-- No group lists a session without a group path, not even a group at the empty path. -/
theorem members_empty (ss : List Session) : members ss "" = [] := by
  have hnone : (ss.filter fun s => !s.groupPath.isEmpty && s.groupPath == "") = [] := by
    rw [List.filter_eq_nil_iff]
    intro s _
    cases h : s.groupPath.isEmpty <;> simp_all
  simp [members, hnone]

/-! ### Paths of the table -/

theorem get?_isSome_iff (t : GroupTree) (p : String) :
    (t.get? p).isSome ↔ p ∈ t.groups.map (·.path) := by
  simp [get?, List.find?_isSome]

theorem mem_paths_put (t : GroupTree) (g : Group) (p : String) :
    p ∈ (t.put g).groups.map (·.path) ↔ p ∈ t.groups.map (·.path) ∨ p = g.path :=
  mem_keys_upsert Group.path g t.groups p

theorem mem_paths_createChain {p : String} (ps : List String) :
    ∀ {t : GroupTree}, p ∈ t.groups.map (·.path) → p ∈ (createChain t ps).groups.map (·.path) := by
  induction ps with
  | nil => exact id
  | cons q ps ih =>
    intro t hp
    unfold createChain
    split
    · exact hp
    · exact ih ((mem_paths_put _ _ _).mpr (.inl hp))

theorem head_mem_createChain (t : GroupTree) (q : String) (ps : List String) :
    q ∈ (createChain t (q :: ps)).groups.map (·.path) := by
  unfold createChain
  split
  · next h => exact (get?_isSome_iff t q).mp h
  · exact mem_paths_createChain ps ((mem_paths_put _ _ _).mpr (.inr rfl))

theorem mem_paths_create (t : GroupTree) (path : String) :
    path ∈ (t.create path).1.groups.map (·.path) := by
  unfold create
  split
  · next g hg => exact (get?_isSome_iff t path).mp (by rw [hg]; rfl)
  · -- the chain starts with `path` itself
    obtain ⟨rest, hl⟩ : ∃ rest, lineage (path.length + 1) path.toList =
        String.ofList path.toList :: rest := ⟨_, rfl⟩
    rw [hl, String.ofList_toList]
    exact head_mem_createChain _ _ _

theorem mem_paths_create_of_mem {t : GroupTree} {p : String} (hp : p ∈ t.groups.map (·.path))
    (path : String) : p ∈ (t.create path).1.groups.map (·.path) := by
  unfold create
  split
  · exact hp
  · exact mem_paths_createChain _ hp

theorem mem_paths_foldl_createFor_of_mem {p : String} (ss : List Session) {t : GroupTree}
    (hp : p ∈ t.groups.map (·.path)) : p ∈ (ss.foldl createFor t).groups.map (·.path) := by
  refine List.foldlRecOn (motive := fun t => p ∈ t.groups.map (·.path)) ss createFor hp ?_
  intro t ht s _
  unfold createFor
  split
  · exact ht
  · exact mem_paths_create_of_mem ht _

theorem mem_paths_foldl_createFor {ss : List Session} {s : Session} (hs : s ∈ ss)
    (hne : s.groupPath ≠ "") (t : GroupTree) :
    s.groupPath ∈ (ss.foldl createFor t).groups.map (·.path) := by
  induction ss generalizing t with
  | nil => exact absurd hs List.not_mem_nil
  | cons s' ss ih =>
    rw [List.foldl_cons]
    rcases List.mem_cons.mp hs with rfl | hs
    · -- the group is created here and kept by the rest of the fold
      have hcreated : s.groupPath ∈ (t.createFor s).groups.map (·.path) := by
        unfold createFor
        rw [if_neg (by simpa using hne)]
        exact mem_paths_create _ _
      exact mem_paths_foldl_createFor_of_mem ss hcreated
    · exact ih hs _

/-- Syncing creates a group for every group path the sessions name. -/
theorem mem_paths_syncSessions {ss : List Session} {s : Session} (hs : s ∈ ss)
    (hne : s.groupPath ≠ "") (t : GroupTree) :
    s.groupPath ∈ (t.syncSessions ss).groups.map (·.path) := by
  have hpaths : (t.syncSessions ss).groups.map (·.path) =
      (ss.foldl createFor t).groups.map (·.path) := by
    simp [syncSessions, List.map_map, Function.comp_def]
  rw [hpaths]
  exact mem_paths_foldl_createFor hs hne t

/-- After syncing, every group lists the members at its path. -/
theorem sessions_of_mem_syncSessions {t : GroupTree} {ss : List Session} {g : Group}
    (hg : g ∈ (t.syncSessions ss).groups) : g.sessions = members ss g.path := by
  simp only [syncSessions, List.mem_map] at hg
  obtain ⟨g₀, -, rfl⟩ := hg
  rfl

/-! ### Folding groups in and out -/

/-- Each group's path and members, in the table's order. -/
def listing (t : GroupTree) : List (String × List String) :=
  t.groups.map fun g => (g.path, g.sessions)

theorem paths_eq_of_listing {t t' : GroupTree} (h : t'.listing = t.listing) :
    t'.groups.map (·.path) = t.groups.map (·.path) := by
  have hfst := congrArg (List.map Prod.fst) h
  simpa [listing, List.map_map, Function.comp_def] using hfst

theorem exists_of_listing {t t' : GroupTree} (h : t'.listing = t.listing) {g' : Group}
    (hg' : g' ∈ t'.groups) : ∃ g ∈ t.groups, g.path = g'.path ∧ g.sessions = g'.sessions := by
  have hpair : (g'.path, g'.sessions) ∈ t.listing := h ▸ List.mem_map_of_mem hg'
  obtain ⟨g, hg, hpg⟩ := List.mem_map.mp hpair
  exact ⟨g, hg, (Prod.mk.inj hpg).1, (Prod.mk.inj hpg).2⟩

theorem listing_modify (t : GroupTree) (path : String) {f : Group → Group}
    (hf : ∀ g, (f g).path = g.path ∧ (f g).sessions = g.sessions) :
    (t.modify path f fun g => (hf g).1).listing = t.listing := by
  simp only [listing, modify, List.map_map]
  apply List.map_congr_left
  intro g _
  simp only [Function.comp]
  split
  · rw [(hf g).1, (hf g).2]
  · rfl

theorem listing_setExpanded (t : GroupTree) (path : String) (e : Bool) :
    (t.setExpanded path e).listing = t.listing :=
  listing_modify t path (f := fun g => { g with expanded := e }) fun _ => ⟨rfl, rfl⟩

theorem listing_toggle (t : GroupTree) (path : String) : (t.toggle path).listing = t.listing :=
  listing_modify t path (f := fun g => { g with expanded := !g.expanded }) fun _ => ⟨rfl, rfl⟩

theorem listing_expandTo (t : GroupTree) (path : String) : (t.expandTo path).listing = t.listing := by
  unfold expandTo
  refine List.foldlRecOn (motive := fun (t' : GroupTree) => t'.listing = t.listing) _ _ rfl ?_
  intro t' ht' _ _
  rw [listing_setExpanded, ht']

theorem listing_mergeExpansion (t : GroupTree) (captured : List (String × Bool)) :
    (t.mergeExpansion captured).1.listing = t.listing := by
  unfold mergeExpansion
  refine List.foldlRecOn (motive := fun (acc : GroupTree × Bool) => acc.1.listing = t.listing) _ _
    rfl ?_
  intro acc hacc pe _
  obtain ⟨p, e⟩ := pe
  dsimp only
  split
  · split
    · rw [listing_setExpanded, hacc]
    · exact hacc
  · exact hacc

end GroupTree

end AgentDeck
