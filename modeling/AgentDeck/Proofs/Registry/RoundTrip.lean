import Mathlib
import AgentDeck.Proofs.Registry.Backups
import AgentDeck.Proofs.Registry.Stored
import AgentDeck.Proofs.Engine.Install

/-!
Saving the registry and loading it back.

In a profile folder that stands, where each of the files a save and a load touch is a file or
missing, a full save succeeds, and the load that follows answers the sessions and tasks saved,
field for field and in order, and the tree's groups in display order without their members
(`save_then_load`). Rebuilding the tree from those groups and the sessions gives back every
group of a tree built the same way, members included (`rebuilt_tree_all`). The view state
saved beside the registry reads back as saved (`saveViewState_then_load`).
-/

namespace AgentDeck

open AgentDeck.Fs AgentDeck.Path AgentDeck.Act

/-! ### Taking the lock -/

namespace Fs.Folder

variable {d : Folder} {fs : Files} {N : List String} {v : String → Option ByteArray} {z : String}

theorem Holds.touch_mem (h : d.Holds fs N v) (hz : z ∈ N) :
    ∃ fs', fs.touch (d.file z) = .ok fs' ∧
      d.Holds fs' N (Function.update v z ((v z).or (some ByteArray.empty))) := by
  have hreach := h.reach (h.plain z hz)
  have hs := h.stores z hz
  cases hv : v z with
  | none =>
    -- on a missing file touching writes it empty
    have hg : fs.get? (d.file z) = none := by simpa [hv, Files.Stores] using hs
    obtain ⟨fs', hw, h'⟩ := h.write hz ByteArray.empty
    refine ⟨fs', ?_, h'⟩
    rw [← hw, Files.write_of_none hreach hg]
    simp [Files.touch, hreach, hg]
  | some b =>
    rw [hv] at hs
    obtain ⟨m, t, hg⟩ := hs
    refine ⟨fs, by simp [Files.touch, hreach, hg], ?_⟩
    rw [Option.some_or, ← hv, Function.update_eq_self]
    exact h

end Fs.Folder

namespace Registry

variable {r : Registry} {d : Folder} {w : World} {N : List String} {v : String → Option ByteArray}

/-- The files of a profile folder that saving and loading touch: the registry, its backups and
temporary file, its lock, and the view state with its temporary file. -/
def profileNames : List String :=
  slotNames ++ ["sessions.lock", "ui_state.json", "ui_state.tmp"]

theorem plain_of_mem_profileNames : ∀ x ∈ profileNames, Plain x := by
  intro x hx
  simp only [profileNames, slotNames, List.cons_append, List.nil_append, List.mem_cons,
    List.not_mem_nil, or_false] at hx
  rcases hx with rfl | rfl | rfl | rfl | rfl | rfl | rfl | rfl <;>
    exact ⟨by decide, by decide, by decide, by decide⟩

/-- Taking the lock succeeds, leaving a file at the lock and every other slot as it was. -/
theorem lock_apply (hr : r.Placed d) (h : d.Holds w.files N v) (hN : "sessions.lock" ∈ N) :
    ∃ fs' v', r.lock w = .ok () { w with files := fs' } ∧ d.Holds fs' N v' ∧
      ∀ x, x ≠ "sessions.lock" → v' x = v x := by
  have hlock : r.sibling "lock" = d.file "sessions.lock" := hr.sibling_file (by decide) (by decide)
  obtain ⟨fs', ht, h'⟩ := h.touch_mem hN
  refine ⟨fs', _, ?_, h', fun x hx => Function.update_of_ne hx _ _⟩
  unfold lock
  rw [hlock, parent_file d plain_lock]
  simp only
  rw [bind_apply_ok (mkdirAll_folder h), touch_eq (located_file d plain_lock), withFiles_apply_ok ht]

/-! ### Saving -/

theorem rollBackups_holds (hr : r.Placed d) (h : d.Holds w.files N v)
    (hN : ∀ x ∈ slotNames, x ∈ N) :
    ∃ w' v', r.rollBackups w = .ok () w' ∧ d.Holds w'.files N v' := by
  have hbak : r.sibling "bak" = d.file "sessions.bak" := hr.sibling_file (by decide) (by decide)
  have hbak2 : r.sibling ("bak." ++ toString 2) = d.file "sessions.bak.2" :=
    hr.sibling_file (by decide) (by decide)
  have hbak3 : r.sibling ("bak." ++ toString 3) = d.file "sessions.bak.3" :=
    hr.sibling_file (by decide) (by decide)
  have hex : Act.pathExists r.path w = .ok (v "sessions.json").isSome w := by
    rw [hr.path_eq, pathExists_slot h (hN _ (by decide))]
  unfold rollBackups
  rw [show (List.range (backupGenerations - 1)).reverse.map (· + 1) = [2, 1] from rfl]
  simp only [List.forIn_cons, List.forIn_nil, beq_iff_eq, Nat.reduceEqDiff, Nat.reduceAdd,
    ↓reduceIte, hbak, hbak2, hbak3]
  cases hj : v "sessions.json" with
  | none =>
    rw [hj] at hex
    exact ⟨w, v, bind_of_ok hex rfl, h⟩
  | some a =>
    rw [hj] at hex
    obtain ⟨w₁, h₁, hh₁⟩ := turn_apply h (x := "sessions.bak.2") (y := "sessions.bak.3")
      (hN _ (by decide)) (hN _ (by decide)) (by decide)
    obtain ⟨w₂, h₂, hh₂⟩ := turn_apply hh₁ (x := "sessions.bak") (y := "sessions.bak.2")
      (hN _ (by decide)) (hN _ (by decide)) (by decide)
    -- the turns leave the registry itself, which is then copied to `.bak`
    have ha : shift "sessions.bak" "sessions.bak.2" (shift "sessions.bak.2" "sessions.bak.3" v)
        "sessions.json" = some a := by
      rw [shift_of_ne (by decide) (by decide), shift_of_ne (by decide) (by decide), hj]
    obtain ⟨fs₃, hc, hh₃⟩ := hh₂.copy (x := "sessions.json") (y := "sessions.bak")
      (hN _ (by decide)) (hN _ (by decide)) ha
    have hcp : Act.copy r.path (d.file "sessions.bak") w₂ = .ok () { w₂ with files := fs₃ } := by
      rw [hr.path_eq, copy_eq (located_file d (plain_of_mem_slotNames _ (by decide)))
        (located_file d (plain_of_mem_slotNames _ (by decide))), withFiles_apply_ok hc]
    exact ⟨_, _, bind_of_ok hex (bind_of_ok (bind_of_ok h₁ (bind_of_ok h₂ rfl)) hcp), hh₃⟩

/-- A write of contents succeeds and leaves their text in the registry. -/
theorem writeContents_holds (hr : r.Placed d) (h : d.Holds w.files N v)
    (hN : ∀ x ∈ slotNames, x ∈ N) (c : Contents) :
    ∃ w' v', r.writeContents c w = .ok () w' ∧ d.Holds w'.files N v' ∧
      v' "sessions.json" = some c.text := by
  have hjson := plain_of_mem_slotNames "sessions.json" (by decide)
  have htmp := plain_of_mem_slotNames "sessions.tmp" (by decide)
  have htemp : r.sibling "tmp" = d.file "sessions.tmp" := hr.sibling_file (by decide) (by decide)
  obtain ⟨w₁, v₁, h₁, hh₁⟩ := rollBackups_holds hr h hN
  obtain ⟨fs₂, hw, hh₂⟩ := hh₁.write (y := "sessions.tmp") (hN _ (by decide)) c.text
  obtain ⟨fs₃, hmv, hh₃⟩ := hh₂.rename (x := "sessions.tmp") (y := "sessions.json")
    (hN _ (by decide)) (hN _ (by decide)) (by decide) (Function.update_self _ _ _)
  have hwr : Act.writeText (d.file "sessions.tmp") (Json.pretty c.toJson) w₁ =
      .ok () { w₁ with files := fs₂ } := by
    rw [writeText_eq (located_file d htmp), withFiles_apply_ok hw]
  have hrn : Act.rename (d.file "sessions.tmp") (d.file "sessions.json") { w₁ with files := fs₂ } =
      .ok () { { w₁ with files := fs₂ } with files := fs₃ } := by
    rw [rename_eq (located_file d htmp) (located_file d hjson), withFiles_apply_ok hmv]
  refine ⟨{ { w₁ with files := fs₂ } with files := fs₃ }, _, ?_, hh₃, Function.update_self _ _ _⟩
  unfold writeContents
  rw [hr.path_eq, parent_file d hjson, htemp]
  exact bind_of_ok (mkdirAll_folder h) (bind_of_ok h₁ (bind_of_ok hwr hrn))

theorem mem_profileNames_of_slot : ∀ x ∈ slotNames, x ∈ profileNames :=
  fun _ hx => List.mem_append_left _ hx

/-- A full save succeeds and leaves in the registry the text of the sessions, the tree's groups
and the tasks, stamped with the time of the save. -/
theorem save_apply (hr : r.Placed d) (h : d.Holds w.files profileNames v)
    (sessions : List Session) (tree : GroupTree) (tasks : List Task) :
    ∃ w' v', r.save sessions tree tasks w = .ok () w' ∧ d.Holds w'.files profileNames v' ∧
      v' "sessions.json" = some (Contents.ofSave sessions tree tasks (w.origin.addMs w.clock)).text := by
  obtain ⟨fs₁, v₁, h₁, hh₁, -⟩ := lock_apply hr h (by decide)
  obtain ⟨w₂, v₂, h₂, hh₂, hj⟩ := writeContents_holds (w := { w with files := fs₁ }) hr hh₁
    mem_profileNames_of_slot
    (Contents.ofSave sessions tree tasks (w.origin.addMs w.clock))
  exact ⟨w₂, v₂, bind_of_ok h₁ (bind_of_ok (now_apply _) h₂), hh₂, hj⟩

/-! ### Loading -/

/-- A slot holding bytes reads as those bytes. -/
theorem readBytes_slot (h : d.Holds w.files N v) {x : String} (hx : x ∈ N) {b : ByteArray}
    (hb : v x = some b) : Act.readBytes (d.file x) w = .ok b w := by
  obtain ⟨m, t, hst⟩ := h.stat_file hx hb
  have hread : w.files.read (d.file x) = .ok b := by
    unfold Files.read
    rw [hst]
    rfl
  unfold readBytes
  rw [bind_apply_ok (abs_apply (located_file d (h.plain x hx)) w)]
  show io (w.files.read (d.file x)) w = _
  rw [hread]
  rfl

/-- A slot holding the bytes of a text reads as that text. -/
theorem readText_slot (h : d.Holds w.files N v) {x : String} (hx : x ∈ N) {s : String}
    (hb : v x = some s.toUTF8) : Act.readText (d.file x) w = .ok s w := by
  unfold readText
  rw [bind_apply_ok (readBytes_slot h hx hb)]
  simp only [String.fromUTF8?, String.toUTF8_eq_toByteArray, dif_pos s.isValidUTF8]
  rfl

theorem readContents_apply (hr : r.Placed d) (h : d.Holds w.files N v) (hN : "sessions.json" ∈ N)
    {c : Contents} (hc : c.Storable) (hj : v "sessions.json" = some c.text) :
    r.readContents w = .ok { c with groups := c.groups.map Group.stored } w := by
  have hread := readText_slot h hN hj
  unfold readContents
  rw [hr.path_eq, bind_apply_ok (by rw [attempt_apply, hread])]
  simp only [Contents.ofText_pretty hc]
  rfl

theorem mtime_apply (hr : r.Placed d) (h : d.Holds w.files N v) (hN : "sessions.json" ∈ N)
    {b : ByteArray} (hj : v "sessions.json" = some b) : ∃ t, r.mtime w = .ok (some t) w := by
  obtain ⟨m, t, hst⟩ := h.stat_file hN hj
  have hstat : Act.stat r.path w = .ok (.file b m t) w := by
    unfold Act.stat
    rw [hr.path_eq, bind_apply_ok (abs_apply (located_file d (h.plain _ hN)) w)]
    show io (w.files.stat (d.file "sessions.json")) w = _
    rw [hst]
    rfl
  refine ⟨t, ?_⟩
  unfold mtime
  rw [bind_apply_ok (by rw [attempt_apply, hstat])]
  rfl

theorem load_apply (hr : r.Placed d) (h : d.Holds w.files profileNames v) {c : Contents}
    (hc : c.Storable) (hj : v "sessions.json" = some c.text) :
    ∃ w' t, r.load w = .ok ({ c with groups := c.groups.map Group.stored }.snapshot (some t)) w' := by
  obtain ⟨fs₁, v₁, h₁, hh₁, hkeep⟩ := lock_apply hr h (by decide)
  have hj₁ : v₁ "sessions.json" = some c.text := (hkeep _ (by decide)).trans hj
  obtain ⟨t, ht⟩ := mtime_apply hr hh₁ (w := { w with files := fs₁ }) (by decide) hj₁
  refine ⟨{ w with files := fs₁ }, t,
    bind_of_ok h₁ (bind_of_ok (readContents_apply hr hh₁ (by decide) hc hj₁) ?_)⟩
  rw [bind_apply_ok ht]
  rfl

end Registry

/-! ### Rebuilding the tree -/

namespace GroupTree

theorem groups_foldl_put {gs : List Group} {t : GroupTree}
    (h : ((t.groups ++ gs).map (·.path)).Nodup) : (gs.foldl put t).groups = t.groups ++ gs := by
  -- each group put after the earlier ones lands at the end, its path being new
  induction gs generalizing t with
  | nil => simp
  | cons g gs ih =>
    have hg : g.path ∉ t.groups.map (·.path) := by
      rw [List.map_append, List.nodup_append] at h
      exact fun hm => h.2.2 _ hm _ (by simp) rfl
    have hput := groups_put_of_not_mem hg
    rw [List.foldl_cons, ih (by simpa [hput] using h), hput]
    simp

/-- Groups with distinct paths make the table that lists them as they come. -/
theorem groups_ofGroups {gs : List Group} (h : (gs.map (·.path)).Nodup) :
    (ofGroups gs).groups = gs :=
  groups_foldl_put (t := {}) h

theorem foldl_createFor_of_mem {t : GroupTree} {ss : List Session}
    (h : ∀ s ∈ ss, s.groupPath ≠ "" → s.groupPath ∈ t.groups.map (·.path)) :
    ss.foldl createFor t = t := by
  induction ss with
  | nil => rfl
  | cons s ss ih =>
    have hs : createFor t s = t := by
      unfold createFor
      by_cases he : s.groupPath = ""
      · simp [he]
      · obtain ⟨g, hg⟩ := Option.isSome_iff_exists.mp
          ((get?_isSome_iff t _).mpr (h s List.mem_cons_self he))
        simp [he, create, hg]
    rw [List.foldl_cons, hs, ih fun s' hs' => h s' (List.mem_cons_of_mem _ hs')]

theorem before_iff (a b : Group) :
    Group.before a b = true ↔ a.order < b.order ∨ (a.order = b.order ∧ a.path ≤ b.path) := by
  simp only [Group.before, Bool.or_eq_true, Bool.and_eq_true, decide_eq_true_eq, beq_iff_eq,
    Bool.not_eq_true', decide_eq_false_iff_not, not_lt]

theorem before_trans (a b c : Group) (hab : Group.before a b = true)
    (hbc : Group.before b c = true) : Group.before a c = true := by
  rw [before_iff] at hab hbc ⊢
  rcases hab with hab | ⟨hab, hab'⟩ <;> rcases hbc with hbc | ⟨hbc, hbc'⟩
  · exact .inl (hab.trans hbc)
  · exact .inl (hbc ▸ hab)
  · exact .inl (hab ▸ hbc)
  · exact .inr ⟨hab.trans hbc, hab'.trans hbc'⟩

theorem before_total (a b : Group) : (Group.before a b || Group.before b a) = true := by
  rw [Bool.or_eq_true, before_iff, before_iff]
  rcases lt_trichotomy a.order b.order with h | h | h
  · exact .inl (.inl h)
  · rcases le_total a.path b.path with h' | h'
    · exact .inl (.inr ⟨h, h'⟩)
    · exact .inr (.inr ⟨h.symm, h'⟩)
  · exact .inr (.inl h)

theorem all_all (t : GroupTree) : t.all.mergeSort Group.before = t.all :=
  List.mergeSort_of_pairwise (List.pairwise_mergeSort before_trans before_total t.groups)

/-- **Rebuilding the tree.** The stored groups of a tree built from groups and sessions,
rebuilt with the same sessions, make the table of the tree's groups in display order, members
included. -/
theorem ofParts_stored_all (gs : List Group) (ss : List Session) :
    (ofParts ((ofParts gs ss).all.map Group.stored) ss).groups = (ofParts gs ss).all := by
  have hperm : (ofParts gs ss).all.Perm (ofParts gs ss).groups := List.mergeSort_perm _ _
  have hnd : (((ofParts gs ss).all.map Group.stored).map (·.path)).Nodup := by
    rw [List.map_map]
    exact (hperm.map _).nodup_iff.mpr (ofParts gs ss).nodup
  -- every group a session names already stands, so rebuilding creates none
  have hfold : ss.foldl createFor (ofGroups ((ofParts gs ss).all.map Group.stored)) =
      ofGroups ((ofParts gs ss).all.map Group.stored) := by
    refine foldl_createFor_of_mem fun s hs hne => ?_
    rw [groups_ofGroups hnd, List.map_map]
    exact (hperm.map _).mem_iff.mpr (mem_paths_syncSessions hs hne _)
  show ((ofGroups _).syncSessions ss).groups = _
  rw [syncSessions]
  dsimp only
  rw [hfold, groups_ofGroups hnd, List.map_map]
  -- and the members it derives are those the tree's groups list
  refine (List.map_congr_left (g := id) fun g hg => ?_).trans (List.map_id _)
  have hmem := sessions_of_mem_syncSessions (hperm.mem_iff.mp hg)
  simp [Group.stored, ← hmem]

theorem rebuilt_tree_all (gs : List Group) (ss : List Session) :
    (ofParts ((ofParts gs ss).all.map Group.stored) ss).all = (ofParts gs ss).all := by
  rw [all, ofParts_stored_all, all_all]

end GroupTree

/-! ### The view state -/

namespace Registry

variable {r : Registry} {d : Folder} {w : World} {v : String → Option ByteArray}

theorem Placed.viewStatePath_eq (hr : r.Placed d) : r.viewStatePath = d.file "ui_state.json" := by
  have hjson := plain_of_mem_slotNames "sessions.json" (by decide)
  rw [viewStatePath, profileDir, hr.path_eq, parent_file d hjson, Option.getD_some]
  exact join_ofNames d.plain (plain_of_mem_profileNames _ (by decide))

theorem Placed.viewStateTemp_eq (hr : r.Placed d) :
    Path.withExtension r.viewStatePath "tmp" = d.file "ui_state.tmp" := by
  have h := @withExtension_ofNames d.names "ui_state" ".json"
    (plain_of_mem_profileNames _ (by decide)) (by decide) "tmp" (by decide)
  rw [show ("ui_state" ++ ".json" : String) = "ui_state.json" by decide,
    show ("ui_state" ++ "." ++ "tmp" : String) = "ui_state.tmp" by decide] at h
  rw [hr.viewStatePath_eq]
  exact h

/-- **View state round trip.** Saving a view state whose offset fits in 64 bits succeeds, and
the view state loaded afterwards is the one saved. -/
theorem saveViewState_then_load (hr : r.Placed d) (h : d.Holds w.files profileNames v)
    {u : ViewState} (hu : u.offset ≤ Json.u64Max) :
    ∃ w', r.saveViewState u w = .ok () w' ∧ r.loadViewState w' = .ok u w' := by
  have hjson := plain_of_mem_profileNames "ui_state.json" (by decide)
  have htmp := plain_of_mem_profileNames "ui_state.tmp" (by decide)
  obtain ⟨fs₁, hw, hh₁⟩ := h.write (y := "ui_state.tmp") (by decide) (Json.pretty u.toJson).toUTF8
  obtain ⟨fs₂, hmv, hh₂⟩ := hh₁.rename (x := "ui_state.tmp") (y := "ui_state.json")
    (by decide) (by decide) (by decide) (Function.update_self _ _ _)
  have hwr : Act.writeText (d.file "ui_state.tmp") (Json.pretty u.toJson) w =
      .ok () { w with files := fs₁ } := by
    rw [writeText_eq (located_file d htmp), withFiles_apply_ok hw]
  have hrn : Act.rename (d.file "ui_state.tmp") (d.file "ui_state.json") { w with files := fs₁ } =
      .ok () { { w with files := fs₁ } with files := fs₂ } := by
    rw [rename_eq (located_file d htmp) (located_file d hjson), withFiles_apply_ok hmv]
  refine ⟨{ { w with files := fs₁ } with files := fs₂ }, ?_, ?_⟩
  · unfold saveViewState
    rw [hr.viewStateTemp_eq, hr.viewStatePath_eq]
    exact bind_of_ok hwr hrn
  · have hread := readText_slot (w := { { w with files := fs₁ } with files := fs₂ }) hh₂
      (x := "ui_state.json") (by decide) (Function.update_self _ _ _)
    unfold loadViewState
    rw [hr.viewStatePath_eq, bind_apply_ok (by rw [attempt_apply, hread])]
    simp only [ViewState.ofText_pretty hu]
    rfl

/-! ### Round trip -/

/-- The contents a save writes can be stored exactly: sessions with instants of the years 0 to
9999, groups whose display orders are 32-bit integers, and the time of the save. -/
theorem storable_ofSave {sessions : List Session} {tree : GroupTree} {tasks : List Task}
    {stamp : Time.Stamp} (hs : ∀ s ∈ sessions, s.Stamped) (hg : ∀ g ∈ tree.groups, g.InRange)
    (hstamp : stamp.Regular) : (Contents.ofSave sessions tree tasks stamp).Storable where
  sessions := hs
  groups g hg' := hg g (List.mem_mergeSort.mp hg')
  updatedAt := hstamp

/-- **Save, then load.** In a profile folder that stands, where each file a save or a load
touches is a file or missing, a full save succeeds, and the load after it answers the sessions
and tasks saved and the tree's groups in display order without their members. -/
theorem save_then_load (hr : r.Placed d) (h : d.Holds w.files profileNames v)
    {sessions : List Session} {tree : GroupTree} {tasks : List Task}
    (hs : ∀ s ∈ sessions, s.Stamped) (hg : ∀ g ∈ tree.groups, g.InRange)
    (hnow : (w.origin.addMs w.clock).Regular) :
    ∃ w₁, r.save sessions tree tasks w = .ok () w₁ ∧ ∃ snap w₂, r.load w₁ = .ok snap w₂ ∧
      snap.sessions = sessions ∧ snap.tasks = tasks ∧ snap.groups = tree.all.map Group.stored := by
  obtain ⟨w₁, v₁, h₁, hh₁, hj⟩ := save_apply hr h sessions tree tasks
  obtain ⟨w₂, t, h₂⟩ := load_apply hr hh₁ (storable_ofSave hs hg hnow) hj
  exact ⟨w₁, h₁, _, w₂, h₂, rfl, rfl, rfl⟩

/-- **Registry round trip.** In a profile folder that stands, where each file a save or a load
touches is a file or missing: a full save of sessions with instants of the years 0 to 9999, a
tree whose display orders are 32-bit integers and tasks succeeds at a time of those years; the
load after it answers the sessions and the tasks, field for field and in order, and the tree's
groups in display order without members; and when the tree was built from groups and those
sessions, the tree rebuilt from the snapshot lists the same groups, members included. Saving a
view state whose offset fits in 64 bits and loading it gives it back. -/
theorem registry_round_trip (hr : r.Placed d) (h : d.Holds w.files profileNames v)
    {sessions : List Session} {tree : GroupTree} {tasks : List Task}
    (hs : ∀ s ∈ sessions, s.Stamped) (hg : ∀ g ∈ tree.groups, g.InRange)
    (hnow : (w.origin.addMs w.clock).Regular) :
    (∃ w₁, r.save sessions tree tasks w = .ok () w₁ ∧ ∃ snap w₂, r.load w₁ = .ok snap w₂ ∧
      snap.sessions = sessions ∧ snap.tasks = tasks ∧ snap.groups = tree.all.map Group.stored ∧
      ∀ gs, tree = GroupTree.ofParts gs sessions → snap.tree.all = tree.all) ∧
    ∀ u : ViewState, u.offset ≤ Json.u64Max →
      ∃ w₁, r.saveViewState u w = .ok () w₁ ∧ r.loadViewState w₁ = .ok u w₁ := by
  obtain ⟨w₁, h₁, snap, w₂, h₂, hss, hts, hgs⟩ := save_then_load hr h hs hg hnow
  refine ⟨⟨w₁, h₁, snap, w₂, h₂, hss, hts, hgs, fun gs ht => ?_⟩,
    fun u hu => saveViewState_then_load hr h hu⟩
  -- the snapshot's tree is the tree rebuilt from the stored groups
  rw [Snapshot.tree, hgs, hss, ht]
  exact GroupTree.rebuilt_tree_all gs sessions

/-- A world whose only directory is the profile folder `/profile`. -/
def profileWorld : World := { files := { entries := [("/profile", .dir 0)] } }

/-- A session in the group `work`, created when the clock of a fresh world starts. -/
def workSession : Session :=
  { id := "s1", title := "build", projectPath := "/home/u/work/app", groupPath := "work",
    createdAt := World.epoch }

theorem profileWorld_holds :
    profileFolder.Holds profileWorld.files profileNames (fun _ => none) where
  plain := plain_of_mem_profileNames
  dir := ⟨0, rfl⟩
  stores x hx := by
    simp only [profileNames, slotNames, List.cons_append, List.nil_append, List.mem_cons,
      List.not_mem_nil, or_false] at hx
    rcases hx with rfl | rfl | rfl | rfl | rfl | rfl | rfl | rfl <;> rfl

theorem workSession_stamped : workSession.Stamped where
  created := ⟨by decide, by decide, by decide⟩
  accessed _ h := by cases h

theorem work_groups_inRange : ∀ g ∈ (GroupTree.ofParts [] [workSession]).groups, g.InRange := by
  intro g hg
  have horders : (GroupTree.ofParts [] [workSession]).groups.map (·.order) = [0] := by decide
  have ho : g.order ∈ [0] := horders ▸ List.mem_map_of_mem hg
  simp only [List.mem_singleton] at ho
  simp [Group.InRange, ho]

theorem work_registry_round_trip :
    Placed ⟨"/profile/sessions.json", "default"⟩ profileFolder ∧
    profileFolder.Holds profileWorld.files profileNames (fun _ => none) ∧
    (∀ s ∈ [workSession], s.Stamped) ∧
    (∀ g ∈ (GroupTree.ofParts [] [workSession]).groups, g.InRange) ∧
    (profileWorld.origin.addMs profileWorld.clock).Regular ∧
    ((∃ w₁, Registry.save ⟨"/profile/sessions.json", "default"⟩ [workSession]
        (GroupTree.ofParts [] [workSession]) [{ id := "t1", title := "ship", sessionId := some "s1" }]
        profileWorld = .ok () w₁ ∧
      ∃ snap w₂, Registry.load ⟨"/profile/sessions.json", "default"⟩ w₁ = .ok snap w₂ ∧
        snap.sessions = [workSession] ∧
        snap.tasks = [{ id := "t1", title := "ship", sessionId := some "s1" }] ∧
        snap.groups = (GroupTree.ofParts [] [workSession]).all.map Group.stored ∧
        ∀ gs, GroupTree.ofParts [] [workSession] = GroupTree.ofParts gs [workSession] →
          snap.tree.all = (GroupTree.ofParts [] [workSession]).all) ∧
      ∀ u : ViewState, u.offset ≤ Json.u64Max →
        ∃ w₁, Registry.saveViewState ⟨"/profile/sessions.json", "default"⟩ u profileWorld = .ok () w₁ ∧
          Registry.loadViewState ⟨"/profile/sessions.json", "default"⟩ w₁ = .ok u w₁) := by
  have hr : Placed ⟨"/profile/sessions.json", "default"⟩ profileFolder := ⟨by decide⟩
  have hs : ∀ s ∈ [workSession], s.Stamped := fun s hs => by
    rw [List.mem_singleton.mp hs]
    exact workSession_stamped
  have hnow : (profileWorld.origin.addMs profileWorld.clock).Regular := ⟨by decide, by decide, by decide⟩
  exact ⟨hr, profileWorld_holds, hs, work_groups_inRange, hnow,
    registry_round_trip hr profileWorld_holds hs work_groups_inRange hnow⟩

end Registry


end AgentDeck
