import Mathlib
import AgentDeck.Proofs.Engine.Layout

/-!
Selecting a session from anywhere in the view.

Selecting a session whose row is hidden unfolds its group and every group above it, rebuilds the
rows and tries again. That finds the row when the session's group and the groups above it are in
the table. They are when the table is closed under the groups above (`GroupTree.Closed`): creating
groups, syncing members and folding keep a table closed, so it stays closed along any run whose
registry reads are. Nothing repairs a table read with a group and without the one above it, and a
session in such a group cannot be selected at all (`orphanedEngine`).
-/

namespace AgentDeck

namespace Engine

open GroupTree

variable {e e' : Engine}

theorem cursor_ensureVisible (e : Engine) : (ensureVisible e).cursor = e.cursor := by
  unfold ensureVisible
  dsimp only
  split <;> rfl

/-- Placing the cursor on `c` leaves it on `c`. -/
theorem cursor_placeCursor? {c : Cursor} (hc : e.placeCursor? c = some e') : e'.cursor = c := by
  unfold placeCursor? rowOf at hc
  obtain ⟨i, hi, rfl⟩ := Option.map_eq_some_iff.mp hc
  obtain ⟨hlt, hp, -⟩ := List.findIdx?_eq_some_iff_getElem.mp hi
  rw [cursor_ensureVisible]
  unfold cursor selectedRow?
  dsimp only
  rw [List.getElem?_eq_getElem hlt]
  generalize e.rows[i] = r at hp ⊢
  cases r <;> cases c <;> simp at hp ⊢ <;> exact hp

theorem placeCursor?_isSome {id : String} {d : Nat} (h : Row.session id d ∈ e.rows) :
    (e.placeCursor? (.session id)).isSome := by
  unfold placeCursor? rowOf
  rw [Option.isSome_map, List.findIdx?_isSome, List.any_eq_true]
  exact ⟨_, h, by simp⟩

theorem session?_of_mem (hn : (e.sessions.map (·.id)).Nodup) {s : Session} (hs : s ∈ e.sessions) :
    e.session? s.id = some s := by
  obtain ⟨t, ht⟩ := Option.isSome_iff_exists.mp
    ((session?_isSome_iff e s.id).mpr (List.mem_map_of_mem hs))
  rw [ht, eq_of_session? hn ht hs rfl]

theorem Drawn.lineage_mem (h : Drawn Closed e) {s : Session} (hs : s ∈ e.sessions)
    (hne : s.groupPath ≠ "") {a : String} (ha : a = s.groupPath ∨ IsAncestor a s.groupPath) :
    a ∈ e.groups.groups.map (·.path) := by
  have hg := h.rooted s hs hne
  rcases ha with rfl | ha
  · exact hg
  · exact h.table _ hg a ha

theorem Drawn.session_mem_unfolded (h : Drawn Closed e) {s : Session} (hs : s ∈ e.sessions) :
    ∃ d, Row.session s.id d ∈ buildRows e.sessions (e.groups.expandTo s.groupPath) := by
  refine session_mem_buildRows hs (fun hne a ha => ?_) fun a ha => isExpanded_expandTo _ ha
  rw [(unfolds_expandTo e.groups s.groupPath).paths]
  exact h.lineage_mem hs hne ha

theorem selectSession_of_mem (h : Drawn Closed e) {s : Session} (hs : s ∈ e.sessions) :
    (e.selectSession s.id).2 = true ∧ (e.selectSession s.id).1.cursor = .session s.id := by
  unfold selectSession
  cases hp : e.placeCursor? (.session s.id) with
  | some e₁ => exact ⟨rfl, (keeps_onNavigation e₁).cursor.trans (cursor_placeCursor? hp)⟩
  | none =>
    -- the row is hidden: unfolding the groups above the session shows it
    dsimp only
    rw [session?_of_mem h.ids hs]
    dsimp only
    obtain ⟨d, hd⟩ := h.session_mem_unfolded hs
    obtain ⟨e₂, he₂⟩ := Option.isSome_iff_exists.mp (placeCursor?_isSome
      (e := { e with groups := e.groups.expandTo s.groupPath,
                     rows := buildRows e.sessions (e.groups.expandTo s.groupPath) }) hd)
    rw [he₂]
    exact ⟨rfl, ((keeps_scheduleSave e₂).trans (keeps_onNavigation _)).cursor.trans
      (cursor_placeCursor? he₂)⟩

theorem selectSession_of_false (h : Drawn Closed e) {id : String}
    (hf : (e.selectSession id).2 = false) : (e.selectSession id).1 = e := by
  cases hsess : e.session? id with
  | some s =>
    have hs : s ∈ e.sessions := List.mem_of_find?_eq_some hsess
    rw [← session?_id hsess, (selectSession_of_mem h hs).1] at hf
    simp at hf
  | none =>
    unfold selectSession at hf ⊢
    cases hp : e.placeCursor? (.session id) with
    | some e₁ =>
      rw [hp] at hf
      simp at hf
    | none => simp only [hsess]

/-- From registry contents closed under the groups above, in every state a run reaches: each
session's group and every group above it are in the table, selecting any session succeeds and
leaves the cursor on it, and a select that fails changes nothing. -/
theorem every_session_selectable (h : ReachableFrom (fun snap => (ofGroups snap.groups).Closed) e) :
    (∀ s ∈ e.sessions, (s.groupPath ≠ "" → s.groupPath ∈ e.groups.groups.map (·.path)) ∧
        ∀ a, IsAncestor a s.groupPath → a ∈ e.groups.groups.map (·.path)) ∧
      (∀ s ∈ e.sessions,
        (e.selectSession s.id).2 = true ∧ (e.selectSession s.id).1.cursor = .session s.id) ∧
      ∀ id, (e.selectSession id).2 = false → (e.selectSession id).1 = e := by
  have hd := (h.viewOk tableLaw_closed fun _ hc ss => closed_ofParts hc ss).toDrawn
  refine ⟨fun s hs => ⟨hd.rooted s hs, fun a ha => ?_⟩, fun s hs => selectSession_of_mem hd hs,
    fun id hf => selectSession_of_false hd hf⟩
  exact hd.lineage_mem hs ha.ne_empty (.inr ha)

/-- A session in a folded group of a flat table. -/
def foldedEngine : Engine :=
  (Engine.new {} ⟨"/r/sessions.json", "test"⟩ Mux.memory GitLookup.inert 0).boot
    { groups := [{ name := "a", path := "a", expanded := false }],
      sessions := [{ id := "x", title := "hidden", projectPath := "/p/x", groupPath := "a",
                     createdAt := World.epoch }] }
    {}

theorem folded_session_selectable :
    ReachableFrom (fun snap => (ofGroups snap.groups).Closed) foldedEngine ∧
      ((∀ s ∈ foldedEngine.sessions,
          (s.groupPath ≠ "" → s.groupPath ∈ foldedEngine.groups.groups.map (·.path)) ∧
            ∀ a, IsAncestor a s.groupPath → a ∈ foldedEngine.groups.groups.map (·.path)) ∧
        (∀ s ∈ foldedEngine.sessions, (foldedEngine.selectSession s.id).2 = true ∧
          (foldedEngine.selectSession s.id).1.cursor = .session s.id) ∧
        ∀ id, (foldedEngine.selectSession id).2 = false →
          (foldedEngine.selectSession id).1 = foldedEngine) :=
  have h : ReachableFrom (fun snap => (ofGroups snap.groups).Closed) foldedEngine :=
    ⟨{}, ⟨"/r/sessions.json", "test"⟩, Mux.memory, GitLookup.inert, 0, _, {}, [],
      closed_of_flat (by decide), fun _ hi => absurd hi List.not_mem_nil, rfl⟩
  ⟨h, every_session_selectable h⟩

/-- A registry table listing the group a/b without the group a above it, with one session in
a/b. -/
def orphanedEngine : Engine :=
  (Engine.new {} ⟨"/r/sessions.json", "test"⟩ Mux.memory GitLookup.inert 0).boot
    { groups := [{ name := "b", path := "a/b", expanded := false }],
      sessions := [{ id := "x", title := "hidden", projectPath := "/p/x", groupPath := "a/b",
                     createdAt := World.epoch }] }
    {}

/-- Booted on a table that lists a/b without a, the session in a/b has no row however the groups
are folded: selecting it fails, and the failed select has still unfolded a/b. -/
theorem orphaned_session_unselectable :
    orphanedEngine.sessions.map (fun s => (s.id, s.groupPath)) = [("x", "a/b")] ∧
      orphanedEngine.groups.groups.map (·.path) = ["a/b"] ∧ IsAncestor "a" "a/b" ∧
      (orphanedEngine.selectSession "x").2 = false ∧
      (orphanedEngine.selectSession "x").1.groups.isExpanded "a/b" = true ∧
      orphanedEngine.groups.isExpanded "a/b" = false := by
  refine ⟨?_, ?_, ⟨['b'], ?_⟩, ?_, ?_, ?_⟩ <;> cbv

end Engine

end AgentDeck
