import Mathlib
import AgentDeck.Proofs.Engine.Screen

/-!
The invariants of the view.

The rows are derived from the sessions and groups, each group lists its members, every group
path a session names is a group, and no two sessions share an id (`Drawn`). The cursor is on a
row, or at the top when there are no rows, and the window shows it without scrolling past the
last row (`CursorOk`). Handlers that keep the view keep both; the ones that rebuild the view
establish them again from the sessions and groups alone, and the ones that unfold groups only
add rows, which keeps the cursor where it was valid.

The invariants carry a property `P` of the group table that creating groups, syncing members
and folding keep (`TableLaw`): the table being closed under the groups above is one, and the
trivial property another.
-/

namespace AgentDeck

/-- A property of group tables that creating groups, syncing members and folding keep. -/
structure TableLaw (P : GroupTree → Prop) : Prop where
  create : ∀ t path, P t → P (t.create path).1
  sync : ∀ t ss, P t → P (t.syncSessions ss)
  listing : ∀ t t' : GroupTree, t'.listing = t.listing → P t → P t'

theorem tableLaw_true : TableLaw fun _ => True := ⟨fun _ _ _ => trivial, fun _ _ _ => trivial,
  fun _ _ _ _ => trivial⟩

theorem tableLaw_closed : TableLaw GroupTree.Closed :=
  ⟨fun _ path h => GroupTree.closed_create h path, fun _ ss h => GroupTree.closed_syncSessions h ss,
    fun _ _ hl h => h.of_listing hl⟩

/-- The groups of `snap` have `P`, whatever sessions join them. -/
def Snapshot.Admits (P : GroupTree → Prop) (snap : Snapshot) : Prop :=
  ∀ ss, P (GroupTree.ofParts snap.groups ss)

namespace Engine

/-- The cursor is on a row, or at the top when there are no rows; the window starts at or above
it, shows it, and does not scroll past the last row. -/
structure CursorOk (e : Engine) : Prop where
  selected : e.selected < e.rows.length ∨ (e.rows = [] ∧ e.selected = 0)
  offset_le : e.offset ≤ e.selected
  visible : 0 < e.height → e.selected < e.offset + e.height
  offset_bound : 0 < e.height → e.offset ≤ e.rows.length - e.height

/-- The view as derived from the sessions and groups: no two sessions share an id, every group
path a session names is a group, every group lists its members, the rows are built from the
sessions and groups, and the groups have `P`. -/
structure Drawn (P : GroupTree → Prop) (e : Engine) : Prop where
  ids : (e.sessions.map (·.id)).Nodup
  rooted : ∀ s ∈ e.sessions, s.groupPath ≠ "" → s.groupPath ∈ e.groups.groups.map (·.path)
  members : ∀ g ∈ e.groups.groups, g.sessions = GroupTree.members e.sessions g.path
  rows : e.rows = buildRows e.sessions e.groups
  table : P e.groups

/-- Both invariants of the view. -/
structure ViewOk (P : GroupTree → Prop) (e : Engine) : Prop extends Drawn P e, CursorOk e

variable {P : GroupTree → Prop} {e e' : Engine}

/-! ### Steps that keep the view -/

theorem Drawn.keeps (h : Drawn P e) (hk : Keeps e e') : Drawn P e' := by
  have hkeys := hk.keys
  refine ⟨hk.ids ▸ h.ids, fun s' hs' hne => ?_, fun g hg => ?_, ?_, hk.groups ▸ h.table⟩
  · -- a session of `e'` has the group path of a session of `e`
    obtain ⟨s, hs, hkey⟩ := List.mem_map.mp (hkeys ▸ List.mem_map_of_mem (f := Session.viewKey) hs')
    have hpath : s.groupPath = s'.groupPath := congrArg (·.2.2) hkey
    rw [hk.groups, ← hpath]
    exact h.rooted s hs (hpath ▸ hne)
  · rw [hk.groups] at hg
    rw [h.members g hg, GroupTree.members_congr hkeys.symm]
  · rw [hk.rows, hk.groups, h.rows, GroupTree.buildRows_congr hkeys.symm]

theorem CursorOk.keeps (h : e.CursorOk) (hk : Keeps e e') : e'.CursorOk := by
  obtain ⟨hsel, hoff, hvis, hbound⟩ := h
  rw [← hk.rows, ← hk.selected, ← hk.offset, ← hk.height] at *
  exact ⟨hsel, hoff, hvis, hbound⟩

theorem ViewOk.keeps (h : ViewOk P e) (hk : Keeps e e') : ViewOk P e' :=
  { h.toDrawn.keeps hk, h.toCursorOk.keeps hk with }

/-! ### Moving the cursor -/

/-- `e'` is `e` with only the cursor and the scroll position moved, and perhaps a fault raised. -/
def Scrolls (e e' : Engine) : Prop := ∃ selected offset fault, e' = { e with selected, offset, fault }

/-- A step that leaves the sessions, groups and rows as they were keeps them derived. -/
theorem Drawn.of_eq (h : Drawn P e) (hs : e'.sessions = e.sessions) (hg : e'.groups = e.groups)
    (hr : e'.rows = e.rows) : Drawn P e' := by
  obtain ⟨hi, hro, hm, hrw, ht⟩ := h
  rw [← hs] at hi hro hm hrw
  rw [← hg] at hro hm hrw ht
  rw [← hr] at hrw
  exact ⟨hi, hro, hm, hrw, ht⟩

theorem Drawn.scrolls (h : Drawn P e) (hs : Scrolls e e') : Drawn P e' := by
  obtain ⟨sel, off, f, rfl⟩ := hs
  exact h.of_eq rfl rfl rfl

theorem scrolls_ensureVisible (e : Engine) : Scrolls e (ensureVisible e) := by
  unfold ensureVisible
  dsimp only
  split
  · exact ⟨_, _, _, rfl⟩
  · exact ⟨_, _, _, rfl⟩

/-- Scrolling keeps the cursor in the window, when the cursor is on a row. -/
theorem cursorOk_ensureVisible (h : e.selected < e.rows.length ∨ (e.rows = [] ∧ e.selected = 0)) :
    (ensureVisible e).CursorOk := by
  have hlen : e.selected < e.rows.length ∨ (e.rows.length = 0 ∧ e.selected = 0) := by
    rcases h with h | ⟨hr, hs⟩
    · exact .inl h
    · exact .inr ⟨by simp [hr], hs⟩
  unfold ensureVisible
  dsimp only
  split
  · next hh =>
    refine ⟨h, ?_, fun hpos => ?_, fun hpos => ?_⟩ <;> dsimp only at * <;> (try split) <;> omega
  · next hh =>
    refine ⟨h, ?_, fun _ => ?_, fun _ => ?_⟩ <;> dsimp only <;> split <;> split <;> omega

theorem scrolls_placeCursor? {c : Cursor} (hc : e.placeCursor? c = some e') : Scrolls e e' := by
  unfold placeCursor? at hc
  obtain ⟨i, -, rfl⟩ := Option.map_eq_some_iff.mp hc
  obtain ⟨sel, off, f, h⟩ := scrolls_ensureVisible { e with selected := i }
  exact ⟨sel, off, f, h⟩

theorem cursorOk_placeCursor? {c : Cursor} (hc : e.placeCursor? c = some e') : e'.CursorOk := by
  unfold placeCursor? at hc
  obtain ⟨i, hi, rfl⟩ := Option.map_eq_some_iff.mp hc
  exact cursorOk_ensureVisible (.inl (List.findIdx?_eq_some_iff_findIdx_eq.mp hi).1)

theorem scrolls_clampCursor (e : Engine) : Scrolls e e.clampCursor := by
  unfold clampCursor
  split
  · obtain ⟨sel, off, f, h⟩ := scrolls_ensureVisible { e with selected := e.rows.length - 1 }
    exact ⟨sel, off, f, h⟩
  · exact scrolls_ensureVisible e

theorem cursorOk_clampCursor (e : Engine) : e.clampCursor.CursorOk := by
  unfold clampCursor
  split
  · next h =>
    refine cursorOk_ensureVisible ?_
    cases hr : e.rows with
    | nil => exact .inr ⟨rfl, by simp⟩
    | cons r rs => exact .inl (by simp)
  · next h => exact cursorOk_ensureVisible (.inl (by omega))

theorem scrolls_placeOrClamp (e : Engine) (c : Cursor) : Scrolls e (e.placeOrClamp c) := by
  unfold placeOrClamp
  cases hc : e.placeCursor? c with
  | none => exact scrolls_clampCursor e
  | some e' => exact scrolls_placeCursor? hc

theorem cursorOk_placeOrClamp (e : Engine) (c : Cursor) : (e.placeOrClamp c).CursorOk := by
  unfold placeOrClamp
  cases hc : e.placeCursor? c with
  | none => exact cursorOk_clampCursor e
  | some e' => exact cursorOk_placeCursor? hc

theorem Drawn.placeOrClamp (h : Drawn P e) (c : Cursor) : ViewOk P (e.placeOrClamp c) :=
  { h.scrolls (scrolls_placeOrClamp e c), cursorOk_placeOrClamp e c with }

theorem Drawn.clampCursor (h : Drawn P e) : ViewOk P e.clampCursor :=
  { h.scrolls (scrolls_clampCursor e), cursorOk_clampCursor e with }

theorem Drawn.placeCursor? (h : Drawn P e) {c : Cursor} (hc : e.placeCursor? c = some e') :
    ViewOk P e' :=
  { h.scrolls (scrolls_placeCursor? hc), cursorOk_placeCursor? hc with }

theorem CursorOk.grow (h : e.CursorOk) (hs : e'.selected = e.selected) (ho : e'.offset = e.offset)
    (hh : e'.height = e.height) (hl : e.rows.length ≤ e'.rows.length) : e'.CursorOk := by
  obtain ⟨hsel, hoff, hvis, hbound⟩ := h
  refine ⟨?_, hs ▸ ho ▸ hoff, fun hpos => ?_, fun hpos => ?_⟩
  · rw [hs]
    rcases hsel with hsel | ⟨-, hz⟩
    · exact .inl (by omega)
    · rw [hz]
      cases hr : e'.rows with
      | nil => exact .inr ⟨rfl, rfl⟩
      | cons r rs => exact .inl (by simp)
  · rw [hs, ho, hh]
    exact hvis (hh ▸ hpos)
  · rw [ho, hh]
    have := hbound (hh ▸ hpos)
    omega

theorem nodup_insertSession (e : Engine) (s : Session) (hn : (e.sessions.map (·.id)).Nodup) :
    ((if (e.session? s.id).isSome then e.sessions.map fun t => if t.id == s.id then s else t
      else e.sessions ++ [s]).map (·.id)).Nodup := by
  split
  · -- replacing keeps every id
    have hids : ((e.sessions.map fun t => if t.id == s.id then s else t).map (·.id)) =
        e.sessions.map (·.id) := by
      rw [List.map_map]
      apply List.map_congr_left
      intro t _
      simp only [Function.comp]
      split
      · next h => exact (beq_iff_eq.mp h).symm
      · rfl
    rwa [hids]
  · next hnone =>
    rw [List.map_append, List.nodup_append]
    refine ⟨hn, List.nodup_singleton _, ?_⟩
    simp only [List.map_cons, List.map_nil, List.mem_singleton]
    rintro a ha b rfl rfl
    exact hnone ((session?_isSome_iff e _).mpr ha)

/-! ### Calls that only move the cursor -/

theorem viewOk_selectGroup (h : ViewOk P e) (path : String) : ViewOk P (e.selectGroup path).1 := by
  unfold selectGroup
  split
  · next e' hc => exact (h.toDrawn.placeCursor? hc).keeps (keeps_onNavigation _)
  · exact h


theorem viewOk_moveCursor (h : ViewOk P e) (delta : Int) : ViewOk P (e.moveCursor delta) := by
  unfold moveCursor
  split
  · exact h
  · next hne =>
    dsimp only
    refine ViewOk.keeps ?_ (keeps_onNavigation _)
    have hpos : 0 < e.rows.length := by
      cases hr : e.rows with
      | nil => simp [hr] at hne
      | cons r rs => simp
    have hd : Drawn P { e with selected := min (e.selected + delta).toNat (e.rows.length - 1) } :=
      h.scrolls ⟨_, e.offset, e.fault, rfl⟩
    exact { hd.scrolls (scrolls_ensureVisible _), cursorOk_ensureVisible
      (e := { e with selected := min (e.selected + delta).toNat (e.rows.length - 1) })
      (.inl (by dsimp only; omega)) with }


theorem viewOk_setHeight (h : ViewOk P e) (height : Nat) : ViewOk P (e.setHeight height) := by
  unfold setHeight
  have hd : Drawn P { e with height } := h.toDrawn.of_eq rfl rfl rfl
  exact { hd.scrolls (scrolls_ensureVisible _),
          cursorOk_ensureVisible (e := { e with height }) h.selected with }


/-! ### Rebuilding the view -/

variable (law : TableLaw P)
include law

theorem viewOk_rebuildView (hn : (e.sessions.map (·.id)).Nodup) (hP : P e.groups) :
    ViewOk P e.rebuildView := by
  unfold rebuildView
  dsimp only
  have hd : Drawn P { e with groups := e.groups.syncSessions e.sessions,
                             rows := buildRows e.sessions (e.groups.syncSessions e.sessions) } :=
    ⟨hn, fun s hs hne => GroupTree.mem_paths_syncSessions hs hne _,
      fun g hg => GroupTree.sessions_of_mem_syncSessions hg, rfl, law.sync _ _ hP⟩
  exact hd.placeOrClamp _

theorem Drawn.refold (h : Drawn P e) {t : GroupTree} (hl : t.listing = e.groups.listing) :
    Drawn P { e with groups := t, rows := buildRows e.sessions t } := by
  refine ⟨h.ids, fun s hs hne => ?_, fun g hg => ?_, rfl, law.listing _ _ hl h.table⟩
  · exact (GroupTree.paths_eq_of_listing hl) ▸ h.rooted s hs hne
  · obtain ⟨g₀, hg₀, hpath, hsess⟩ := GroupTree.exists_of_listing hl hg
    rw [← hsess, ← hpath]
    exact h.members g₀ hg₀

theorem viewOk_insertSession (hn : (e.sessions.map (·.id)).Nodup) (hP : P e.groups) (s : Session) :
    ViewOk P (e.insertSession s) := by
  unfold insertSession
  dsimp only
  refine viewOk_rebuildView law (nodup_insertSession e s hn) ?_
  dsimp only
  split
  · exact hP
  · exact law.create _ _ hP

/-! ### Calls on the view -/

theorem viewOk_applyRestore (h : Drawn P e) (r : Restore) : ViewOk P (e.applyRestore r).1 := by
  unfold applyRestore
  dsimp only
  have h₀ : Drawn P { e with offset := r.offset } := h.scrolls ⟨e.selected, r.offset, e.fault, rfl⟩
  split
  · next e' hc => exact h₀.placeCursor? hc
  · split
    · split
      · next s _ => exact (h₀.refold law (GroupTree.listing_expandTo _ _)).placeOrClamp _
      · exact h₀.clampCursor
    · exact h₀.clampCursor

theorem viewOk_selectSession (h : ViewOk P e) (id : String) : ViewOk P (e.selectSession id).1 := by
  unfold selectSession
  split
  · next e' hc => exact (h.toDrawn.placeCursor? hc).keeps (keeps_onNavigation _)
  · split
    · exact h
    · next s _ =>
      dsimp only
      have hd := h.toDrawn.refold law (GroupTree.listing_expandTo e.groups s.groupPath)
      split
      · next e' hc =>
        exact (hd.placeCursor? hc).keeps ((keeps_scheduleSave _).trans (keeps_onNavigation _))
      · -- the session stays hidden, and unfolding its groups only added rows
        have hgrow : e.rows.length ≤ (buildRows e.sessions (e.groups.expandTo s.groupPath)).length := by
          rw [h.rows]
          exact length_buildRows_le (GroupTree.unfolds_expandTo _ _)
        have hc : CursorOk { e with groups := e.groups.expandTo s.groupPath,
                                    rows := buildRows e.sessions (e.groups.expandTo s.groupPath) } :=
          h.toCursorOk.grow rfl rfl rfl hgrow
        exact { hd, hc with }

theorem viewOk_toggleGroup (h : ViewOk P e) (path : String) : ViewOk P (e.toggleGroup path) := by
  unfold toggleGroup
  split
  · exact h
  · dsimp only
    have hd := h.toDrawn.refold law (GroupTree.listing_toggle e.groups path)
    refine ViewOk.keeps ?_ ((keeps_scheduleSave _).trans (keeps_onNavigation _))
    split
    · next e' hc => exact hd.placeCursor? hc
    · exact hd.placeOrClamp _

theorem viewOk_renameSession (h : ViewOk P e) (id title : String) :
    ViewOk P (e.renameSession id title).1 := by
  unfold renameSession
  split
  · exact h
  · dsimp only
    refine ViewOk.keeps ?_ (keeps_markActivity _)
    have hids := (quiet_modifySession e id (f := fun s => { s with title }) fun _ _ => rfl).ids
    have hr := viewOk_rebuildView law (e := e.modifySession id fun s => { s with title })
      (hids ▸ h.ids) h.table
    split
    · exact hr.keeps rfl
    · exact hr.keeps (keeps_scheduleSave _)

theorem viewOk_call (h : ViewOk P e) (c : Call) : ViewOk P (e.call c) := by
  cases c with
  | moveCursor delta => exact viewOk_moveCursor h delta
  | selectSession id => exact viewOk_selectSession law h id
  | selectGroup path => exact viewOk_selectGroup h path
  | toggleGroup path => exact viewOk_toggleGroup law h path
  | setHeight height => exact viewOk_setHeight h height
  | rename id title => exact viewOk_renameSession law h id title

/-! ### Handlers that change the sessions -/

omit law in
theorem foldl_dropFound_groups (l : List String) (acc : Engine × List Session) :
    (l.foldl dropFound acc).1.groups = acc.1.groups := by
  induction l generalizing acc with
  | nil => rfl
  | cons id l ih =>
    rw [List.foldl_cons, ih]
    unfold dropFound
    split <;> rfl

omit law in
theorem nodup_foldl_dropFound (l : List String) (acc : Engine × List Session)
    (hn : (acc.1.sessions.map (·.id)).Nodup) :
    ((l.foldl dropFound acc).1.sessions.map (·.id)).Nodup := by
  induction l generalizing acc with
  | nil => exact hn
  | cons id l ih =>
    rw [List.foldl_cons]
    refine ih _ ?_
    unfold dropFound
    split
    · exact (List.filter_sublist.map _).nodup hn
    · exact hn

omit law in
theorem foldl_dropFound_of_removed (l : List String) (acc : Engine × List Session)
    (h : (l.foldl dropFound acc).2 = acc.2) : (l.foldl dropFound acc).1 = acc.1 := by
  induction l generalizing acc with
  | nil => rfl
  | cons id l ih =>
    rw [List.foldl_cons] at h ⊢
    cases hs : acc.1.session? id with
    | none =>
      rw [dropFound_of_none hs] at h ⊢
      exact ih acc h
    | some t =>
      -- the session found is among the removed, so something was removed
      rw [dropFound_of_some hs] at h
      obtain ⟨rs, hrs, -⟩ := removed_foldl_dropFound l (acc.1.dropSession t, acc.2 ++ [t])
      have hlen := congrArg List.length (hrs.symm.trans h)
      simp at hlen

theorem viewOk_deleteSessions (h : ViewOk P e) (l : List String) (kill : Bool) :
    ViewOk P (e.deleteSessions l kill) := by
  cases hr : e.reloading
  · rw [deleteSessions_of_idle l kill hr]
    dsimp only
    split
    · next hnone =>
      rw [foldl_dropFound_of_removed l (e, []) (by simpa using hnone)]
      exact h
    · have hre := viewOk_rebuildView law (nodup_foldl_dropFound l (e, []) h.ids)
        ((foldl_dropFound_groups l (e, [])).symm ▸ h.table)
      have hsave : ViewOk P (((l.foldl dropFound (e, [])).1.rebuildView.persistDeletes
          ((l.foldl dropFound (e, [])).2.map (·.id))).scheduleSave) :=
        hre.keeps ((keeps_persistDeletes _ _).trans (keeps_scheduleSave _))
      split
      · exact hsave.keeps (keeps_spawn _ _)
      · exact hsave
  · unfold deleteSessions
    rw [if_pos hr]
    exact h

omit law in
theorem ViewOk.animations (h : ViewOk P e) (a : Animations) :
    ViewOk P { e with animations := a } :=
  h.keeps rfl

theorem viewOk_addSession (h : ViewOk P e) (s : Session) (anim : Animation)
    (stored : Except Error Unit) : ViewOk P (e.addSession s anim stored) := by
  have h₁ := h.keeps (keeps_noteStored e s stored)
  cases hr : e.reloading
  · rw [addSession_of_idle s anim stored hr]
    dsimp only
    refine ViewOk.keeps ?_ (keeps_scheduleSave _)
    refine viewOk_selectSession law ?_ _
    exact (viewOk_insertSession law h₁.ids h₁.table s).animations _
  · rw [addSession_of_reloading s anim stored hr]
    exact h₁.keeps rfl

theorem viewOk_restoreSession (h : ViewOk P e) (s : Session) (stored : Except Error Unit) :
    ViewOk P (e.restoreSession s stored) := by
  have h₁ := h.keeps (keeps_noteStored e s stored)
  rw [restoreSession_eq]
  dsimp only
  refine ViewOk.keeps ?_ ((keeps_scheduleSave _).trans (keeps_respawn _ _))
  refine viewOk_selectSession law ?_ _
  refine ViewOk.keeps ?_ (keeps_cacheDrop _ _ _)
  refine (viewOk_insertSession law ?_ ?_ s).animations _
  · exact h₁.ids
  · exact h₁.table

omit law in
theorem nodup_admitLoaded (e : Engine) (acc : List Session × List String × Bool) (s : Session)
    (hseen : acc.2.1 = acc.1.map (·.id)) (hn : (acc.1.map (·.id)).Nodup) :
    ((e.admitLoaded acc s).1.map (·.id)).Nodup := by
  obtain ⟨out, seen, changed⟩ := acc
  simp only at hseen hn
  subst hseen
  unfold admitLoaded
  dsimp only
  split
  · exact hn
  · split
    · exact hn
    · next hc =>
      have hid : (e.withLiveStatus s).id = s.id := by
        unfold withLiveStatus
        split <;> rfl
      rw [List.map_append, List.nodup_append]
      refine ⟨hn, List.nodup_singleton _, ?_⟩
      simp only [List.map_cons, List.map_nil, List.mem_singleton, hid]
      rintro a ha b rfl rfl
      exact hc (List.contains_iff_mem.mpr ha)

omit law in
theorem nodup_foldl_admitLoaded (e : Engine) (l : List Session)
    (acc : List Session × List String × Bool) (hseen : acc.2.1 = acc.1.map (·.id))
    (hn : (acc.1.map (·.id)).Nodup) : ((l.foldl e.admitLoaded acc).1.map (·.id)).Nodup := by
  induction l generalizing acc with
  | nil => exact hn
  | cons s l ih =>
    rw [List.foldl_cons]
    exact ih _ (admitLoaded_spec e acc s hseen).1 (nodup_admitLoaded e acc s hseen hn)

omit law in
theorem nodup_foldl_mergeKept (l : List Session) (acc : List Session × List String × Bool)
    (hseen : acc.2.1 = acc.1.map (·.id)) (hn : (acc.1.map (·.id)).Nodup) :
    ((l.foldl mergeKept acc).1.map (·.id)).Nodup := by
  induction l generalizing acc with
  | nil => exact hn
  | cons s l ih =>
    rw [List.foldl_cons]
    unfold mergeKept
    split
    · exact ih acc hseen hn
    · next hc =>
      refine ih _ (by simp [hseen]) ?_
      rw [List.map_append, List.nodup_append]
      refine ⟨hn, List.nodup_singleton _, ?_⟩
      simp only [List.map_cons, List.map_nil, List.mem_singleton]
      rintro a ha b rfl rfl
      exact hc (List.contains_iff_mem.mpr (hseen ▸ ha))

omit law in
/-- A reload installs sessions with distinct ids, whatever the registry holds. -/
theorem nodup_ids_reloadedSessions (e : Engine) (loaded : List Session) :
    ((e.reloadedSessions loaded).1.map (·.id)).Nodup := by
  unfold reloadedSessions loadedSessions
  dsimp only
  rw [foldl_retitle_ids]
  obtain ⟨hseen, -⟩ := foldl_admitLoaded e loaded ([], [], false) rfl
  exact nodup_foldl_mergeKept _ _ hseen
    (nodup_foldl_admitLoaded e loaded ([], [], false) rfl List.nodup_nil)

omit law in
theorem keeps_lastViewState (e : Engine) (v : ViewState) : Keeps e { e with lastViewState := v } :=
  rfl

omit law in
theorem keeps_cache (e : Engine) (c : TtlCache CacheValue) : Keeps e { e with cache := c } := rfl

/-- Installing a snapshot builds the view from the loaded sessions and groups, whatever state the
engine was in, provided the loaded groups have `P` with those sessions in them. -/
theorem viewOk_install (e : Engine) (snap : Snapshot) (r : Restore)
    (hsnap : snap.Admits P) : ViewOk P (e.install snap r).1 := by
  unfold install
  dsimp only
  refine ViewOk.keeps ?_ (keeps_cache _ _)
  refine viewOk_applyRestore law ?_ r
  have hl := GroupTree.listing_mergeExpansion
    (GroupTree.ofParts snap.groups (e.reloadedSessions snap.sessions).1) r.expansion
  refine ⟨nodup_ids_reloadedSessions e snap.sessions, fun s hs hne => ?_, fun g hg => ?_, rfl,
    law.listing _ _ hl (hsnap _)⟩
  · exact (GroupTree.paths_eq_of_listing hl) ▸ GroupTree.mem_paths_syncSessions hs hne _
  · obtain ⟨g₀, hg₀, hpath, hsess⟩ := GroupTree.exists_of_listing hl hg
    rw [← hsess, ← hpath]
    exact GroupTree.sessions_of_mem_syncSessions hg₀

theorem viewOk_foldl_insertKept (l : List Session) (acc : Engine × Bool) (h : ViewOk P acc.1) :
    ViewOk P (l.foldl insertKept acc).1 := by
  induction l generalizing acc with
  | nil => exact h
  | cons s l ih =>
    rw [List.foldl_cons]
    refine ih _ ?_
    unfold insertKept
    split
    · exact h
    · exact viewOk_insertSession law h.ids h.table s

theorem viewOk_keepForceSaved (h : ViewOk P e) : ViewOk P e.keepForceSaved := by
  rw [keepForceSaved_eq]
  dsimp only
  have hfold := viewOk_foldl_insertKept law e.forceSaved ({ e with forceSaved := [] }, false)
    (h.keeps rfl)
  split
  · exact hfold.keeps (keeps_scheduleSave _)
  · exact hfold

theorem viewOk_finishReload (h : ViewOk P e) (version : Nat) (result : Except Error Snapshot)
    (hres : ∀ snap, result = .ok snap → snap.Admits P) :
    ViewOk P (e.finishReload version result) := by
  by_cases hcur : version = e.reloadVersion ∧ e.reloading = true
  · cases result with
    | error err =>
      rw [finishReload_error hcur.1 hcur.2 err]
      refine viewOk_keepForceSaved law ?_
      have h₁ : ViewOk P
          { e with restore := none, reloading := false, pendingTitles := [] }.dropLandedDeletes :=
        h.keeps rfl
      split
      · exact h₁
      · exact h₁.keeps (keeps_showBanner _ _)
    | ok snap =>
      obtain ⟨r, hfr⟩ := finishReload_ok hcur.1 hcur.2 snap
      rw [hfr]
      dsimp only
      have hin := viewOk_install law { e with restore := none } snap r (hres snap rfl)
      have h₂ : ViewOk P
          { ({ e with restore := none }.install snap r).1 with reloading := false }.dropLandedDeletes :=
        hin.keeps rfl
      have h₃ := h₂.keeps (keeps_fetchSelected _)
      split
      · exact h₃.keeps (keeps_scheduleSave _)
      · exact h₃
  · rw [finishReload_of_stale result hcur]
    exact h

end Engine

/-- The registry contents a message brings in: those a reload has read. -/
def Message.loaded? : Message → Option Snapshot
  | .reloadLoaded _ (.ok snap) => some snap
  | _ => none

/-- The registry contents an input brings in. -/
def Input.loaded? : Input → Option Snapshot
  | .message m _ _ => m.loaded?
  | .call _ _ => none

namespace Engine

variable {P : GroupTree → Prop} {e : Engine} (law : TableLaw P)
include law

theorem viewOk_react (h : ViewOk P e) (m : Message) (hm : ∀ snap ∈ m.loaded?, snap.Admits P)
    (stored : Except Error Unit) :
    ViewOk P (e.react m stored) := by
  cases m with
  | storageChanged => exact h.keeps (keeps_startReload e)
  | lifecycle ev =>
    cases ev with
    | created s => exact viewOk_addSession law h s .launching stored
    | forked s => exact viewOk_addSession law h s .forking stored
    | deleted id kill => exact viewOk_deleteSessions law h [id] kill
    | bulkDeleted ids kill => exact viewOk_deleteSessions law h ids kill
    | restored =>
      rcases react_restored e stored with ⟨s, -, hre⟩ | ⟨-, hre⟩
      · rw [hre]
        exact viewOk_restoreSession law h s stored
      · rw [hre]
        exact h
  | statusUpdate id => exact h.keeps (keeps_onStatusUpdate e id)
  | tick => exact h.keeps (keeps_tick e)
  | previewDebounce id => exact h.keeps (keeps_onPreviewDebounce e id)
  | hookStatus ev => exact h.keeps (keeps_onHookStatus e ev h.ids)
  | reloadLoaded version result =>
    refine viewOk_finishReload law h version result fun snap hs => ?_
    subst hs
    exact hm snap rfl
  | previewCaptured id result => exact h.keeps (keeps_onPreviewCaptured e id result)
  | dirtyChecked id result => exact h.keeps (keeps_onDirtyChecked e id result)
  | remoteChecked id result => exact h.keeps (keeps_onRemoteChecked e id result)
  | reviewFetched id result => exact h.keeps (keeps_onReviewFetched e id result)
  | statusesProbed result => exact h.keeps (keeps_onStatusesProbed e result)
  | deletesPersisted ids result => exact h.keeps (keeps_onDeletesPersisted e ids result)
  | saveFailed text => exact h.keeps (keeps_showBanner e _)
  | failure text => exact h.keeps (keeps_showBanner e text)

theorem viewOk_take (h : ViewOk P e) (i : Input) (hi : ∀ snap ∈ i.loaded?, snap.Admits P) :
    ViewOk P (e.take i) := by
  cases i with
  | message m stored clock => exact viewOk_react law (e := { e with clock }) (h.keeps rfl) m hi stored
  | call c clock => exact viewOk_call law (e := { e with clock }) (h.keeps rfl) c

omit law in
/-- Take in the inputs in turn. -/
def feed (e : Engine) (inputs : List Input) : Engine := inputs.foldl take e

omit law in
@[simp] theorem feed_nil (e : Engine) : e.feed [] = e := rfl

omit law in
@[simp] theorem feed_cons (e : Engine) (i : Input) (inputs : List Input) :
    e.feed (i :: inputs) = (e.take i).feed inputs := rfl

theorem viewOk_feed (h : ViewOk P e) (inputs : List Input)
    (hin : ∀ i ∈ inputs, ∀ snap ∈ i.loaded?, snap.Admits P) :
    ViewOk P (e.feed inputs) := by
  induction inputs generalizing e with
  | nil => exact h
  | cons i inputs ih =>
    exact ih (viewOk_take law h i (hin i List.mem_cons_self))
      fun j hj => hin j (List.mem_cons_of_mem _ hj)

theorem viewOk_boot (e : Engine) (snap : Snapshot) (v : ViewState)
    (hsnap : snap.Admits P) : ViewOk P (e.boot snap v) := by
  unfold boot
  dsimp only
  exact ((viewOk_install law e snap _ hsnap).keeps (keeps_lastViewState _ _)).keeps
    (keeps_fetchSelected _)

omit law in
/-- An engine that some run reaches when all registry contents it reads, at boot and at each
reload, have `Q`: booted on them and on any stored view state (any scroll position among them),
then fed any messages and calls. -/
def ReachableFrom (Q : Snapshot → Prop) (e : Engine) : Prop :=
  ∃ (config : Config) (registry : Registry) (mux : Mux) (git : GitLookup) (now : Nat)
    (snap : Snapshot) (v : ViewState) (inputs : List Input),
    Q snap ∧ (∀ i ∈ inputs, ∀ s ∈ i.loaded?, Q s) ∧
      e = ((Engine.new config registry mux git now).boot snap v).feed inputs

omit law in
/-- An engine that some run reaches from any registry contents. -/
def Reachable (e : Engine) : Prop := ReachableFrom (fun _ => True) e

/-- The view is valid in every state a run reaches when all registry contents it reads admit
`P`. -/
theorem ReachableFrom.viewOk {Q : Snapshot → Prop} (hQ : ∀ snap, Q snap → snap.Admits P)
    (h : ReachableFrom Q e) : ViewOk P e := by
  obtain ⟨config, registry, mux, git, now, snap, v, inputs, hsnap, hin, rfl⟩ := h
  exact viewOk_feed law (viewOk_boot law _ snap v (hQ snap hsnap)) inputs
    fun i hi s hs => hQ s (hin i hi s hs)

omit law in
theorem Reachable.viewOk (h : e.Reachable) : ViewOk (fun _ => True) e :=
  ReachableFrom.viewOk tableLaw_true (fun _ _ _ => trivial) h

omit law in
/-- In every state a run reaches, the cursor is on a row, or at the top when there are no rows;
the window starts at or above it and, when it has a height, shows the cursor without scrolling
past the last row. -/
theorem cursor_in_window (h : e.Reachable) :
    (e.rows = [] → e.selected = 0) ∧ (e.rows ≠ [] → e.selected < e.rows.length) ∧
      e.offset ≤ e.selected ∧
      (0 < e.height → e.selected < e.offset + e.height ∧ e.offset ≤ e.rows.length - e.height) := by
  have hc := h.viewOk.toCursorOk
  refine ⟨fun hr => ?_, fun hr => ?_, hc.offset_le, fun hh => ⟨hc.visible hh, hc.offset_bound hh⟩⟩
  · rcases hc.selected with hlt | ⟨-, h0⟩
    · simp [hr] at hlt
    · exact h0
  · rcases hc.selected with hlt | ⟨hr', -⟩
    · exact hlt
    · exact absurd hr' hr

omit law in
/-- Two sessions booted with the cursor on the second and a stored scroll position past the end,
then shown in a window one row high. -/
def scrolledEngine : Engine :=
  ((Engine.new {} ⟨"/r/sessions.json", "test"⟩ Mux.memory GitLookup.inert 0).boot
    { sessions := [{ id := "x", title := "one", projectPath := "/p/x", createdAt := World.epoch },
                   { id := "y", title := "two", projectPath := "/p/y", createdAt := World.epoch }] }
    { cursorSession := some "y", offset := 7 }).feed [.call (.setHeight 1) 0]

omit law in
theorem scrolled_cursor_in_window :
    scrolledEngine.Reachable ∧
      (scrolledEngine.rows = [] → scrolledEngine.selected = 0) ∧
      (scrolledEngine.rows ≠ [] → scrolledEngine.selected < scrolledEngine.rows.length) ∧
      scrolledEngine.offset ≤ scrolledEngine.selected ∧
      (0 < scrolledEngine.height →
        scrolledEngine.selected < scrolledEngine.offset + scrolledEngine.height ∧
          scrolledEngine.offset ≤ scrolledEngine.rows.length - scrolledEngine.height) :=
  have h : scrolledEngine.Reachable := ⟨{}, ⟨"/r/sessions.json", "test"⟩, Mux.memory,
    GitLookup.inert, 0, _, _, _, trivial, fun _ _ _ _ => trivial, rfl⟩
  ⟨h, cursor_in_window h⟩

end Engine

end AgentDeck
