import Mathlib
import AgentDeck.Proofs.Registry.RoundTrip
import AgentDeck.Proofs.Group.Paths

/-!
Storing one session and removing sessions, each a read, a change and a write of the registry
under its lock.

Storing a session puts it in place of the first session with its id, or after the others; it
takes back the tasks linked to it, and when it names a group, creates the group and the missing
groups above it, keeping every group that was there (`Upserted`). Creation stops at the first
group that exists, so the groups above the session's group are all there only when the stored
groups had the groups above each of them. Removing sessions drops every session with one of
the ids and marks the tasks linked to them orphaned (`Removed`). Removing a session and storing
it again gives back the sessions there were, when no other session had its id.

A registry whose text reads as contents is written over with the changed contents; one whose
bytes are no such text fails the change, and only the lock file may have been made.
Main statement: `targeted_registry_writes`.
-/

namespace AgentDeck

open AgentDeck.Fs AgentDeck.Path AgentDeck.Act

theorem upsert_eq_modify {α κ : Type} [DecidableEq κ] (key : α → κ) (x : α) (l : List α) :
    upsert key x l = if l.any (key · == key x) then l.modify (l.findIdx (key · == key x)) fun _ => x
      else l ++ [x] := by
  induction l with
  | nil => rfl
  | cons y ys ih =>
    by_cases hy : key y = key x
    · simp [upsert, hy, List.findIdx_cons]
    · have hb : (key y == key x) = false := beq_eq_false_iff_ne.mpr hy
      rw [upsert, if_neg hy, ih]
      simp only [List.any_cons, List.findIdx_cons, hb, Bool.false_or, cond_false,
        List.modify_succ_cons]
      split <;> rfl

/-! ### The groups a stored session creates -/

namespace GroupTree

theorem mem_put_of_not_mem {t : GroupTree} {g : Group} (hg : g ∈ t.groups) {p : String}
    (hp : p ∉ t.groups.map (·.path)) : g ∈ (t.put (Group.ofPath p)).groups := by
  have hnew : (Group.ofPath p).path ∉ t.groups.map (·.path) := hp
  rw [groups_put_of_not_mem hnew]
  exact List.mem_append_left _ hg

theorem mem_createChain_of_mem {g : Group} (ps : List String) :
    ∀ {t : GroupTree}, g ∈ t.groups → g ∈ (createChain t ps).groups := by
  induction ps with
  | nil => exact id
  | cons p ps ih =>
    intro t hg
    rw [createChain_cons]
    split
    · exact hg
    · next hp =>
      exact ih (mem_put_of_not_mem hg (by simpa [get?_isSome_iff] using hp))

theorem mem_create_of_mem {t : GroupTree} {g : Group} (hg : g ∈ t.groups) (path : String) :
    g ∈ (t.create path).1.groups := by
  unfold create
  split
  · exact hg
  · exact mem_createChain_of_mem _ hg

theorem mem_paths_all (t : GroupTree) (p : String) :
    p ∈ t.all.map (·.path) ↔ p ∈ t.groups.map (·.path) := by
  simp [all, List.mem_mergeSort]

end GroupTree

namespace Contents

/-! ### What the two changes must do -/

/-- What storing the session `s` must make of the contents `c`: `s` in place of the first
session with its id, or after the others; every group kept, `s`'s group there, and in a closed
table the groups above it too; the tasks linked to `s` taken back, the others as they were. -/
structure Upserted (c : Contents) (s : Session) (c' : Contents) : Prop where
  sessions : c'.sessions = upsert Session.id s c.sessions
  groups_of_empty : s.groupPath = "" → c'.groups = c.groups
  groups_kept : ∀ g ∈ c.groups, g ∈ c'.groups
  group_mem : s.groupPath ≠ "" → s.groupPath ∈ c'.groups.map (·.path)
  ancestors : (GroupTree.ofGroups c.groups).Closed → ∀ a, GroupTree.IsAncestor a s.groupPath →
    a ∈ c'.groups.map (·.path)
  tasks : c'.tasks = c.tasks.map fun t => if t.isLinkedTo s.id then { t with orphaned := false } else t

/-- What removing the sessions with ids `ids` must make of the contents `c`: every session with
one of the ids gone, the others in order; the groups as they were; exactly the tasks linked to
one of the ids orphaned. -/
structure Removed (c : Contents) (ids : List String) (c' : Contents) : Prop where
  sessions : c'.sessions = c.sessions.filter fun s => s.id ∉ ids
  groups : c'.groups = c.groups
  tasks : c'.tasks = c.tasks.map fun t =>
    if ∃ id ∈ ids, t.isLinkedTo id then { t with orphaned := true } else t

/-- The stamp of the change plays no part in either. -/
theorem Upserted.stamp {c c' : Contents} {s : Session} (h : Upserted c s c') (stamp : Time.Stamp) :
    Upserted c s { c' with updatedAt := stamp } :=
  ⟨h.sessions, h.groups_of_empty, h.groups_kept, h.group_mem, h.ancestors, h.tasks⟩

theorem Removed.stamp {c c' : Contents} {ids : List String} (h : Removed c ids c')
    (stamp : Time.Stamp) : Removed c ids { c' with updatedAt := stamp } :=
  ⟨h.sessions, h.groups, h.tasks⟩

theorem putSession_sessions (c : Contents) (s : Session) :
    (c.putSession s).sessions = upsert Session.id s c.sessions := by
  rw [upsert_eq_modify]
  rfl

theorem upserted_putSession {c : Contents} (hnd : (c.groups.map (·.path)).Nodup) (s : Session) :
    Upserted c s (c.putSession s) := by
  have htree : (GroupTree.ofGroups c.groups).groups = c.groups := GroupTree.groups_ofGroups hnd
  -- the groups of a session in a group: the table with that group created, in display order
  have hgroups (hs : s.groupPath ≠ "") :
      (c.putSession s).groups = ((GroupTree.ofGroups c.groups).create s.groupPath).1.all := by
    simp [putSession, hs]
  refine ⟨putSession_sessions c s, fun hs => by simp [putSession, hs], fun g hg => ?_,
    fun hs => ?_, fun hc a ha => ?_, rfl⟩
  · by_cases hs : s.groupPath = ""
    · simpa [putSession, hs] using hg
    · rw [hgroups hs]
      exact List.mem_mergeSort.mpr (GroupTree.mem_create_of_mem (by rwa [htree]) _)
  · rw [hgroups hs, GroupTree.mem_paths_all]
    exact GroupTree.mem_paths_create _ _
  · -- a closed table stays closed, and the session's group is in it
    have hs : s.groupPath ≠ "" := ha.ne_empty
    rw [hgroups hs, GroupTree.mem_paths_all]
    exact GroupTree.closed_create hc _ _ (GroupTree.mem_paths_create _ _) a ha

theorem any_contains_iff (t : Task) (ids : List String) :
    t.sessionId.any ids.contains = true ↔ ∃ id ∈ ids, t.isLinkedTo id := by
  cases h : t.sessionId <;> simp [Task.isLinkedTo, h]

theorem removed_dropSessions (c : Contents) (ids : List String) :
    Removed c ids (c.dropSessions ids) := by
  refine ⟨by simp [dropSessions], rfl, ?_⟩
  simp only [dropSessions]
  congr 1
  funext t
  simp only [any_contains_iff]

/-- **Removed, then stored again.** Removing the only session with an id and storing it again
gives back the sessions there were, the stored one last, and leaves each task as it was except
that the tasks linked to it are no longer orphaned. -/
theorem restored_of_removed_upserted {c c₁ c₂ : Contents} {x : Session}
    (hx : c.sessions.filter (·.id == x.id) = [x]) (h₁ : Removed c [x.id] c₁)
    (h₂ : Upserted c₁ x c₂) :
    c₂.sessions.Perm c.sessions ∧
      c₂.tasks = c.tasks.map fun t => if t.isLinkedTo x.id then { t with orphaned := false } else t := by
  have hgone : x.id ∉ c₁.sessions.map Session.id := by
    rw [h₁.sessions]
    simp
  have hsessions : c₂.sessions = c.sessions.filter (fun s => s.id ∉ [x.id]) ++ [x] := by
    rw [h₂.sessions, upsert_of_not_mem _ _ hgone, h₁.sessions]
  refine ⟨?_, ?_⟩
  · -- the session comes back at the end, after those with other ids
    have hrest : (c.sessions.filter fun s => decide (s.id ∉ [x.id])) =
        c.sessions.filter fun s => !(s.id == x.id) := by
      congr 1
      funext s
      by_cases hs : s.id = x.id <;> simp [hs]
    have hsplit := List.filter_append_perm (fun s : Session => s.id == x.id) c.sessions
    rw [hx] at hsplit
    rw [hsessions, hrest]
    exact List.perm_append_comm.trans hsplit
  · rw [h₂.tasks, h₁.tasks, List.map_map]
    congr 1
    funext t
    have hlink : ({ t with orphaned := true } : Task).isLinkedTo x.id = t.isLinkedTo x.id := rfl
    by_cases ht : t.isLinkedTo x.id <;> simp [ht, hlink]

end Contents

/-! ### Reading and writing the registry -/

namespace Registry

variable {r : Registry} {d : Folder} {w : World} {N : List String} {v : String → Option ByteArray}

/-- A slot holding bytes reads as their text, and fails when they are no UTF-8. -/
theorem readText_bytes (h : d.Holds w.files N v) {x : String} (hx : x ∈ N) {b : ByteArray}
    (hb : v x = some b) :
    Act.readText (d.file x) w = match String.fromUTF8? b with
      | some s => .ok s w
      | none => .error (.io .notUtf8) w := by
  unfold readText
  rw [bind_apply_ok (readBytes_slot h hx hb)]
  cases String.fromUTF8? b <;> rfl

theorem readContents_fails (hr : r.Placed d) (h : d.Holds w.files N v) (hN : "sessions.json" ∈ N)
    {b : ByteArray} (hb : v "sessions.json" = some b)
    (hbad : ∀ text, String.fromUTF8? b = some text → ∃ e, Contents.ofText text = .error e) :
    ∃ e, r.readContents w = .error e w := by
  have hread := readText_bytes h hN hb
  rw [← hr.path_eq] at hread
  unfold readContents
  cases hutf : String.fromUTF8? b with
  | none =>
    rw [hutf] at hread
    rw [bind_apply_ok (by rw [attempt_apply, hread])]
    exact ⟨_, rfl⟩
  | some text =>
    rw [hutf] at hread
    obtain ⟨e, he⟩ := hbad text hutf
    rw [bind_apply_ok (by rw [attempt_apply, hread])]
    simp only [he]
    exact ⟨e, rfl⟩

theorem readContents_text (hr : r.Placed d) (h : d.Holds w.files N v) (hN : "sessions.json" ∈ N)
    {text : String} (hj : v "sessions.json" = some text.toUTF8) {c : Contents}
    (hc : Contents.ofText text = .ok c) : r.readContents w = .ok c w := by
  have hread := readText_slot h hN hj
  unfold readContents
  rw [hr.path_eq, bind_apply_ok (by rw [attempt_apply, hread])]
  simp only [hc]
  rfl

theorem update_apply (hr : r.Placed d) (h : d.Holds w.files profileNames v) {text : String}
    (hj : v "sessions.json" = some text.toUTF8) {c : Contents} (hc : Contents.ofText text = .ok c)
    (f : Contents → Contents) :
    ∃ w' v', r.update f w = .ok () w' ∧ d.Holds w'.files profileNames v' ∧
      v' "sessions.json" = some { f c with updatedAt := w.origin.addMs w.clock }.text := by
  obtain ⟨fs₁, v₁, h₁, hh₁, hkeep⟩ := lock_apply hr h (by decide)
  have hj₁ : v₁ "sessions.json" = some text.toUTF8 := (hkeep _ (by decide)).trans hj
  have hread := readContents_text (w := { w with files := fs₁ }) hr hh₁ (by decide) hj₁ hc
  obtain ⟨w₂, v₂, h₂, hh₂, hj₂⟩ := writeContents_holds (w := { w with files := fs₁ }) hr hh₁
    mem_profileNames_of_slot { f c with updatedAt := w.origin.addMs w.clock }
  exact ⟨w₂, v₂, bind_of_ok h₁ (bind_of_ok hread (bind_of_ok (now_apply _) h₂)), hh₂, hj₂⟩

theorem update_fails (hr : r.Placed d) (h : d.Holds w.files profileNames v) {b : ByteArray}
    (hb : v "sessions.json" = some b)
    (hbad : ∀ text, String.fromUTF8? b = some text → ∃ e, Contents.ofText text = .error e)
    (f : Contents → Contents) :
    ∃ e w' v', r.update f w = .error e w' ∧ d.Holds w'.files profileNames v' ∧
      ∀ x, x ≠ "sessions.lock" → v' x = v x := by
  obtain ⟨fs₁, v₁, h₁, hh₁, hkeep⟩ := lock_apply hr h (by decide)
  have hb₁ : v₁ "sessions.json" = some b := (hkeep _ (by decide)).trans hb
  obtain ⟨e, hread⟩ := readContents_fails (w := { w with files := fs₁ }) hr hh₁ (by decide) hb₁ hbad
  refine ⟨e, { w with files := fs₁ }, v₁, ?_, hh₁, hkeep⟩
  unfold update
  rw [bind_apply_ok h₁, bind_apply_error hread]

/-- **Targeted registry writes.** In a profile folder whose registry holds a text that reads as
contents with distinct group paths, storing a session and removing sessions succeed and write
the contents as they must be; removing the only session with an id and storing it again gives
back the sessions there were and takes back its tasks. A registry whose bytes are no text of
contents makes both fail, every file of the profile but the lock left as it was. -/
theorem targeted_registry_writes (hr : r.Placed d) (h : d.Holds w.files profileNames v) :
    (∀ (text : String) (c : Contents), v "sessions.json" = some text.toUTF8 →
      Contents.ofText text = .ok c → (c.groups.map (·.path)).Nodup →
        (∀ s : Session, ∃ w' v' c', r.upsert s w = .ok () w' ∧ d.Holds w'.files profileNames v' ∧
          v' "sessions.json" = some c'.text ∧ c.Upserted s c') ∧
        (∀ ids : List String, ∃ w' v' c', r.remove ids w = .ok () w' ∧
          d.Holds w'.files profileNames v' ∧ v' "sessions.json" = some c'.text ∧ c.Removed ids c') ∧
        ∀ (x : Session) (c₁ c₂ : Contents), c.sessions.filter (·.id == x.id) = [x] →
          c.Removed [x.id] c₁ → c₁.Upserted x c₂ →
            c₂.sessions.Perm c.sessions ∧ c₂.tasks = c.tasks.map fun t =>
              if t.isLinkedTo x.id then { t with orphaned := false } else t) ∧
    ∀ b : ByteArray, v "sessions.json" = some b →
      (∀ text, String.fromUTF8? b = some text → ∃ e, Contents.ofText text = .error e) →
        (∀ s : Session, ∃ e w' v', r.upsert s w = .error e w' ∧ d.Holds w'.files profileNames v' ∧
          ∀ x, x ≠ "sessions.lock" → v' x = v x) ∧
        ∀ ids : List String, ∃ e w' v', r.remove ids w = .error e w' ∧
          d.Holds w'.files profileNames v' ∧ ∀ x, x ≠ "sessions.lock" → v' x = v x := by
  refine ⟨fun text c hj hc hnd => ⟨fun s => ?_, fun ids => ?_, ?_⟩, fun b hb hbad =>
    ⟨fun s => update_fails hr h hb hbad _, fun ids => update_fails hr h hb hbad _⟩⟩
  · obtain ⟨w', v', hw, hh, hj'⟩ := update_apply hr h hj hc (·.putSession s)
    exact ⟨w', v', _, hw, hh, hj', (Contents.upserted_putSession hnd s).stamp _⟩
  · obtain ⟨w', v', hw, hh, hj'⟩ := update_apply hr h hj hc (·.dropSessions ids)
    exact ⟨w', v', _, hw, hh, hj', (Contents.removed_dropSessions c ids).stamp _⟩
  · intro x c₁ c₂ hx h₁ h₂
    exact Contents.restored_of_removed_upserted hx h₁ h₂

/-- A save of `workSession` into an empty profile leaves a registry that stores and removes
sessions as they must be. -/
theorem saved_registry_writes :
    ∃ (w : World) (v : String → Option ByteArray) (text : String) (c : Contents),
      profileFolder.Holds w.files profileNames v ∧ v "sessions.json" = some text.toUTF8 ∧
      Contents.ofText text = .ok c ∧ (c.groups.map (·.path)).Nodup ∧ c.sessions = [workSession] ∧
      ∀ s : Session, ∃ w' v' c', Registry.upsert ⟨"/profile/sessions.json", "default"⟩ s w = .ok () w' ∧
        profileFolder.Holds w'.files profileNames v' ∧ v' "sessions.json" = some c'.text ∧
        c.Upserted s c' := by
  have hr : Placed ⟨"/profile/sessions.json", "default"⟩ profileFolder := ⟨by decide⟩
  obtain ⟨w₁, v₁, -, hh, hj⟩ := save_apply hr profileWorld_holds [workSession]
    (GroupTree.ofParts [] [workSession]) []
  -- the saved contents read back, groups without members
  have hstore : (Contents.ofSave [workSession] (GroupTree.ofParts [] [workSession]) []
      (profileWorld.origin.addMs profileWorld.clock)).Storable :=
    storable_ofSave (fun s hs => by rw [List.mem_singleton.mp hs]; exact workSession_stamped)
      work_groups_inRange ⟨by decide, by decide, by decide⟩
  have hpaths : ((GroupTree.ofParts [] [workSession]).all.map Group.stored).map (·.path) =
      ["work"] := by
    cbv
  have hnd : (((GroupTree.ofParts [] [workSession]).all.map Group.stored).map (·.path)).Nodup := by
    rw [hpaths]
    exact List.nodup_singleton _
  refine ⟨w₁, v₁, _, _, hh, hj, Contents.ofText_pretty hstore, hnd, rfl, fun s => ?_⟩
  exact ((targeted_registry_writes hr hh).1 _ _ hj (Contents.ofText_pretty hstore) hnd).1 s

end Registry

namespace Contents

/-- The first of two sessions that share the id `d`. -/
def firstTwin : Session := { id := "d", title := "first", projectPath := "/p/a", createdAt := World.epoch }

/-- The second session with the id `d`. -/
def secondTwin : Session :=
  { id := "d", title := "second", projectPath := "/p/b", createdAt := World.epoch }

/-- Removing `d` and storing the first twin again loses the second; and storing a session in the
group `a/b` into a table that has `a/b` but not `a` leaves `a` out. -/
theorem twin_lost_and_ancestor_missing :
    ¬ ((({ sessions := [firstTwin, secondTwin], updatedAt := World.epoch } : Contents).dropSessions
        ["d"]).putSession firstTwin).sessions.Perm [firstTwin, secondTwin] ∧
      "a" ∉ (({ groups := [{ name := "b", path := "a/b" }], updatedAt := World.epoch } : Contents).putSession
        { id := "x", title := "one", projectPath := "/p/x", groupPath := "a/b",
          createdAt := World.epoch }).groups.map (·.path) := by
  have hsessions : ((({ sessions := [firstTwin, secondTwin], updatedAt := World.epoch } :
      Contents).dropSessions ["d"]).putSession firstTwin).sessions = [firstTwin] := by
    cbv
  have hgroups : (({ groups := [{ name := "b", path := "a/b" }], updatedAt := World.epoch } : Contents).putSession
      { id := "x", title := "one", projectPath := "/p/x", groupPath := "a/b",
        createdAt := World.epoch }).groups.map (·.path) = ["a/b"] := by
    cbv
  rw [hsessions, hgroups]
  decide

end Contents

end AgentDeck
