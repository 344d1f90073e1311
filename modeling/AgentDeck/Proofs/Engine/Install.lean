import Mathlib
import AgentDeck.Proofs.Engine.Selection
import AgentDeck.Proofs.Cache.Flat

/-!
What a reload installs.

When the load of the running reload lands with a snapshot, the engine takes the snapshot in and
lays over it what happened in memory while the load ran. The code does it with folds that carry
the ids taken so far and a flag for what differs from the file; this module says what they
compute, as plain functions of the engine and the snapshot:

* the sessions are the first of each id among the loaded sessions not deleted meanwhile, each
  with its live status, followed by the sessions stored meanwhile whose ids are not taken, each
  with the title it was renamed to meanwhile (`Engine.installedSessions`);
* the tasks are the snapshot's;
* the groups are the snapshot's groups with members derived from those sessions, each taking
  the fold-out flag the group at its path had when the load landed (`GroupTree.overlay`);
* the cursor goes back on the item it was on when the load landed or, when it was on nothing,
  on the item captured when the reload began, with that scroll position (`Engine.landing`). A
  session whose row is hidden gets its group and every group above it unfolded; an item that is
  gone leaves the cursor where it was, within the rows.

Main statement: `finishReload_installs`.
-/

namespace AgentDeck

/-! ### The first session of each id -/

/-- The first session of each id, in order. -/
def firstById : List Session → List Session
  | [] => []
  | s :: ss => s :: (firstById ss).filter (·.id != s.id)

@[simp] theorem firstById_nil : firstById [] = [] := rfl

theorem firstById_cons (s : Session) (ss : List Session) :
    firstById (s :: ss) = s :: (firstById ss).filter (·.id != s.id) := rfl

theorem mem_ids_firstById (l : List Session) (x : String) :
    x ∈ (firstById l).map (·.id) ↔ x ∈ l.map (·.id) := by
  induction l with
  | nil => simp
  | cons s l ih =>
    simp only [firstById_cons, List.map_cons, List.mem_cons, ← ih]
    constructor
    · rintro (rfl | hx)
      · exact Or.inl rfl
      · obtain ⟨t, ht, rfl⟩ := List.mem_map.mp hx
        exact Or.inr (List.mem_map_of_mem (List.mem_filter.mp ht).1)
    · rintro (rfl | hx)
      · exact Or.inl rfl
      · by_cases hxs : x = s.id
        · exact Or.inl hxs
        · obtain ⟨t, ht, rfl⟩ := List.mem_map.mp hx
          exact Or.inr (List.mem_map_of_mem (List.mem_filter.mpr ⟨ht, by simpa using hxs⟩))

theorem firstById_append (a b : List Session) :
    firstById (a ++ b) =
      firstById a ++ (firstById b).filter fun s => !(a.map (·.id)).contains s.id := by
  induction a with
  | nil => simp
  | cons s a ih =>
    rw [List.cons_append, firstById_cons, ih, firstById_cons, List.filter_append, List.filter_filter,
      List.cons_append]
    congr 2
    apply List.filter_congr
    intro x _
    by_cases hx : x.id = s.id <;> simp [hx]

theorem filter_firstById_cons (seen : List String) (s : Session) (l : List Session) :
    (firstById (s :: l)).filter (fun x => !seen.contains x.id) =
      if seen.contains s.id then (firstById l).filter fun x => !seen.contains x.id
      else s :: (firstById l).filter fun x => !(seen ++ [s.id]).contains x.id := by
  have hfilter : ((firstById l).filter (·.id != s.id)).filter (fun x => !seen.contains x.id) =
      (firstById l).filter fun x => !(seen ++ [s.id]).contains x.id := by
    rw [List.filter_filter]
    apply List.filter_congr
    intro x _
    by_cases hx : x.id = s.id <;> simp [hx]
  rw [firstById_cons, List.filter_cons, hfilter]
  by_cases hc : seen.contains s.id
  · have hmem : s.id ∈ seen := List.contains_iff_mem.mp hc
    rw [if_neg (by simp [hmem]), if_pos hc]
    -- the id of `s` is among `seen`, so leaving it out as well changes nothing
    apply List.filter_congr
    intro x _
    by_cases hx : x.id = s.id <;> simp [hx, hmem]
  · have hmem : s.id ∉ seen := fun h => hc (List.contains_iff_mem.mpr h)
    rw [if_pos (by simp [hmem]), if_neg hc]

namespace GroupTree

/-! ### The group at a path -/

variable {t : GroupTree}

theorem get?_eq_some_iff {p : String} {g : Group} :
    t.get? p = some g ↔ g ∈ t.groups ∧ g.path = p := by
  constructor
  · intro hg
    exact ⟨List.mem_of_find?_eq_some hg, by simpa using List.find?_some hg⟩
  · rintro ⟨hg, rfl⟩
    cases hf : t.get? g.path with
    | none => simpa using List.find?_eq_none.mp hf g hg
    | some g' =>
      -- the group found has the path of `g`, and only `g` has it
      have hg' : g' ∈ t.groups ∧ g'.path = g.path :=
        ⟨List.mem_of_find?_eq_some hf, by simpa using List.find?_some hf⟩
      rw [List.inj_on_of_nodup_map t.nodup hg'.1 hg hg'.2]

/-! ### Laying captured flags over a table -/

/-- Each group takes the fold-out flag `flag?` gives its path, if it gives one. -/
def overlay (t : GroupTree) (flag? : String → Option Bool) : GroupTree :=
  ⟨t.groups.map fun g => { g with expanded := (flag? g.path).getD g.expanded },
    nodup_paths_map (fun _ => rfl) t.nodup⟩

theorem paths_overlay (t : GroupTree) (flag? : String → Option Bool) :
    (t.overlay flag?).groups.map (·.path) = t.groups.map (·.path) := by
  simp [overlay, List.map_map, Function.comp_def]

theorem listing_overlay (t : GroupTree) (flag? : String → Option Bool) :
    (t.overlay flag?).listing = t.listing := by
  simp [overlay, listing, List.map_map, Function.comp_def]

theorem setExpanded_of_forall {p : String} {b : Bool}
    (h : ∀ g ∈ t.groups, g.path = p → g.expanded = b) : t.setExpanded p b = t := by
  ext1
  simp only [setExpanded, modify]
  refine (List.map_congr_left fun g hg => ?_).trans (List.map_id t.groups)
  split
  · next hp =>
    rw [← h g hg (by simpa using hp)]
    rfl
  · rfl

theorem setExpanded_overlay (t : GroupTree) (flag? : String → Option Bool) (p : String) (b : Bool) :
    (t.overlay flag?).setExpanded p b =
      t.overlay fun q => if q = p then some b else flag? q := by
  ext1
  simp only [overlay, setExpanded, modify, List.map_map]
  apply List.map_congr_left
  intro g _
  by_cases hp : g.path = p <;> simp [hp]

theorem mergeExpansion_append_singleton (t : GroupTree) (l : List (String × Bool)) (p : String)
    (b : Bool) : (t.mergeExpansion (l ++ [(p, b)])).1 = (t.mergeExpansion l).1.setExpanded p b := by
  have hn := (t.mergeExpansion l).1.nodup
  unfold mergeExpansion at hn ⊢
  rw [List.foldl_append]
  simp only [List.foldl_cons, List.foldl_nil]
  split
  · next g hg =>
    split
    · rfl
    · next hb =>
      -- the group at the path has the flag already
      refine (setExpanded_of_forall fun g' hg' hp => ?_).symm
      have hg'' := get?_eq_some_iff.mp hg
      rw [List.inj_on_of_nodup_map hn hg' hg''.1 (hp.trans hg''.2.symm)]
      simpa using hb
  · next hg =>
    -- no group is at the path
    refine (setExpanded_of_forall fun g' hg' hp => ?_).symm
    have hnone := List.find?_eq_none.mp hg g' hg'
    simp [hp] at hnone

theorem mergeExpansion_eq_overlay (captured : List (String × Bool))
    (hk : (captured.map Prod.fst).Nodup) :
    (t.mergeExpansion captured).1 = t.overlay fun p => List.lookup p captured := by
  induction captured using List.reverseRecOn with
  | nil =>
    ext1
    simp only [mergeExpansion, List.foldl_nil, overlay]
    exact (List.map_id'' (fun g => by simp) t.groups).symm
  | append_singleton l pb ih =>
    obtain ⟨p, b⟩ := pb
    rw [List.map_append, List.nodup_append] at hk
    have hl := ih hk.1
    rw [mergeExpansion_append_singleton, hl, setExpanded_overlay]
    -- the flag captured last is the only one at its path
    congr 1
    funext q
    rw [lookup_append]
    by_cases hq : q = p
    · have hnone : l.lookup p = none :=
        (lookup_eq_none_iff l p).mpr fun hm => hk.2.2 p hm p (by simp) rfl
      simp [hq, hnone]
    · simp [hq, lookup_cons_of_ne _ _ hq]

theorem nodup_keys_expansion (t : GroupTree) : (t.expansion.map Prod.fst).Nodup := by
  have hperm := ((List.mergeSort_perm (t.groups.map fun g => (g.path, g.expanded))
    fun a b => !(b.1 < a.1)).map Prod.fst)
  refine hperm.nodup_iff.mpr ?_
  simpa [List.map_map, Function.comp_def] using t.nodup

theorem lookup_expansion (t : GroupTree) (p : String) :
    t.expansion.lookup p = (t.get? p).map (·.expanded) := by
  have hperm := List.mergeSort_perm (t.groups.map fun g => (g.path, g.expanded))
    fun a b => !(b.1 < a.1)
  apply Option.ext
  intro b
  rw [lookup_eq_some_iff t.nodup_keys_expansion, expansion, hperm.mem_iff, Option.map_eq_some_iff]
  simp only [List.mem_map, Prod.mk.injEq, get?_eq_some_iff]
  constructor
  · rintro ⟨g, hg, hp, hb⟩
    exact ⟨g, ⟨hg, hp⟩, hb⟩
  · rintro ⟨g, ⟨hg, hp⟩, hb⟩
    exact ⟨g, hg, hp, hb⟩

end GroupTree

namespace Engine

/-! ### The sessions a reload installs -/

/-- `s` with the title a table of renames gives its id, if it gives one. -/
def retitled (titles : List (String × String)) (s : Session) : Session :=
  match titles.lookup s.id with
  | some title => { s with title }
  | none => s

/-- The sessions a reload installs from the loaded sessions `loaded`: of the loaded sessions not
deleted meanwhile, each with its live status, and then of the sessions stored meanwhile, the
first of each id, each with the title it was renamed to meanwhile. -/
def installedSessions (e : Engine) (loaded : List Session) : List Session :=
  (firstById ((loaded.filter fun s => (e.pendingDeletes.lookup s.id).isNone).map e.withLiveStatus ++
    e.forceSaved)).map (retitled e.pendingTitles)

variable {e : Engine}

theorem withLiveStatus_id (e : Engine) (s : Session) : (e.withLiveStatus s).id = s.id := by
  unfold withLiveStatus
  split <;> rfl

theorem foldl_mergeKept_fst (l : List Session) (acc : List Session × List String × Bool)
    (hseen : acc.2.1 = acc.1.map (·.id)) :
    (l.foldl mergeKept acc).1 = acc.1 ++ (firstById l).filter fun s => !acc.2.1.contains s.id := by
  induction l generalizing acc with
  | nil => simp
  | cons s l ih =>
    rw [List.foldl_cons, filter_firstById_cons]
    by_cases hc : acc.2.1.contains s.id
    · have hstep : mergeKept acc s = acc := if_pos hc
      rw [hstep, if_pos hc, ih acc hseen]
    · have hstep : mergeKept acc s = (acc.1 ++ [s], acc.2.1 ++ [s.id], true) := if_neg hc
      rw [hstep, if_neg hc, ih _ (by simp [hseen])]
      simp

theorem foldl_admitLoaded_fst (e : Engine) (l : List Session)
    (acc : List Session × List String × Bool) (hseen : acc.2.1 = acc.1.map (·.id)) :
    (l.foldl e.admitLoaded acc).1 = acc.1 ++
      (firstById ((l.filter fun s => (e.pendingDeletes.lookup s.id).isNone).map
        e.withLiveStatus)).filter fun s => !acc.2.1.contains s.id := by
  induction l generalizing acc with
  | nil => simp
  | cons s l ih =>
    obtain ⟨out, seen, changed⟩ := acc
    simp only at hseen
    rw [List.foldl_cons, List.filter_cons]
    cases hg : e.pendingDeletes.lookup s.id with
    | some landed =>
      -- a session deleted meanwhile is left out
      have hstep : e.admitLoaded (out, seen, changed) s = (out, seen, true) := by
        simp [admitLoaded, hg]
      simp only [Option.isNone_some, Bool.false_eq_true, if_false]
      rw [hstep, ih _ hseen]
    | none =>
      simp only [Option.isNone_none, if_true]
      rw [List.map_cons, filter_firstById_cons, withLiveStatus_id]
      by_cases hc : seen.contains s.id
      · have hstep : e.admitLoaded (out, seen, changed) s = (out, seen, changed) := by
          simp [admitLoaded, hg, List.contains_iff_mem.mp hc]
        rw [hstep, if_pos hc, ih _ hseen]
      · have hmem : s.id ∉ seen := fun h => hc (List.contains_iff_mem.mpr h)
        have hstep : e.admitLoaded (out, seen, changed) s =
            (out ++ [e.withLiveStatus s], seen ++ [s.id], changed) := by
          simp [admitLoaded, hg, hmem, withLiveStatus_id]
        rw [hstep, if_neg hc, ih _ (by simp [hseen, withLiveStatus_id])]
        simp

/-! ### Renames -/

theorem findIdx_id_eq_iff {l : List Session} (hn : (l.map (·.id)).Nodup) {id : String} {j : Nat}
    (hj : j < l.length) : l.findIdx (·.id == id) = j ↔ l[j].id = id := by
  rw [List.findIdx_eq hj]
  refine ⟨fun h => by simpa using h.1, fun h => ⟨by simpa using h, fun k hk => ?_⟩⟩
  -- an earlier session has another id, as no two share one
  have hne : l[k].id ≠ l[j].id := by
    intro heq
    have hkj := (@List.Nodup.getElem_inj_iff _ _ hn k (by simp; omega) j (by simpa using hj)).mp
      (by simpa using heq)
    omega
  simpa [h] using hne

theorem retitle_fst (acc : List Session × Bool) (id title : String)
    (hn : (acc.1.map (·.id)).Nodup) :
    (retitle acc (id, title)).1 = acc.1.map fun s => if s.id = id then { s with title } else s := by
  obtain ⟨l, changed⟩ := acc
  simp only at hn ⊢
  unfold retitle
  dsimp only
  cases hf : l.find? (·.id == id) with
  | none =>
    -- no session has the id
    have hno : ∀ s ∈ l, s.id ≠ id := fun s hs hid => by
      simpa [hid] using List.find?_eq_none.mp hf s hs
    exact (List.map_congr_left fun s hs => if_neg (hno s hs)).trans (List.map_id l) |>.symm
  | some s =>
    have hsid : s.id = id := by simpa using List.find?_some hf
    dsimp only
    split
    · -- a new title goes to the index of the session with the id
      apply List.ext_getElem (by simp)
      intro j h₁ h₂
      have hj : j < l.length := by simpa using h₂
      rw [List.getElem_modify, List.getElem_map]
      simp only [findIdx_id_eq_iff hn hj]
    · next hsame =>
      -- the title is the one it has, and the session with the id is `s`
      have ht : s.title = title := by simpa using hsame
      refine (List.map_congr_left fun t ht' => ?_).trans (List.map_id l) |>.symm
      split
      · next hid =>
        rw [List.inj_on_of_nodup_map hn ht' (List.mem_of_find?_eq_some hf) (hid.trans hsid.symm),
          ← ht]
        rfl
      · rfl

theorem foldl_retitle_fst (titles : List (String × String)) (acc : List Session × Bool)
    (hn : (acc.1.map (·.id)).Nodup) (hk : (titles.map Prod.fst).Nodup) :
    (titles.foldl retitle acc).1 = acc.1.map (retitled titles) := by
  induction titles generalizing acc with
  | nil => exact (List.map_id'' (fun _ => rfl) acc.1).symm
  | cons p titles ih =>
    obtain ⟨id, title⟩ := p
    rw [List.map_cons, List.nodup_cons] at hk
    rw [List.foldl_cons, ih _ (by rw [retitle_ids]; exact hn) hk.2, retitle_fst acc id title hn,
      List.map_map]
    apply List.map_congr_left
    intro s _
    by_cases hs : s.id = id
    · -- the rename of `id` is its only one
      have hnone : titles.lookup id = none := (lookup_eq_none_iff titles id).mpr hk.1
      simp [retitled, hs, hnone]
    · simp [retitled, hs, lookup_cons_of_ne _ _ hs]

/-- **The sessions a reload installs.** With no id renamed twice, the folds that take in the
loaded sessions, the sessions kept aside and the renames compute `installedSessions`. -/
theorem reloadedSessions_fst (e : Engine) (loaded : List Session)
    (hk : (e.pendingTitles.map Prod.fst).Nodup) :
    (e.reloadedSessions loaded).1 = e.installedSessions loaded := by
  unfold reloadedSessions loadedSessions
  dsimp only
  obtain ⟨hseen, -⟩ := foldl_admitLoaded e loaded ([], [], false) rfl
  have hnodup := nodup_foldl_mergeKept e.forceSaved _ hseen
    (nodup_foldl_admitLoaded e loaded ([], [], false) rfl List.nodup_nil)
  rw [foldl_retitle_fst _ _ hnodup hk, foldl_mergeKept_fst _ _ hseen, hseen,
    foldl_admitLoaded_fst e loaded ([], [], false) rfl, installedSessions, firstById_append]
  -- the ids taken by the loaded sessions are the ids among them
  congr 2
  · simp
  · apply List.filter_congr
    intro x _
    simp [mem_ids_firstById]

/-! ### Putting the cursor back -/

theorem ensureVisible_eq (e : Engine) : ∃ offset fault, ensureVisible e = { e with offset, fault } := by
  unfold ensureVisible
  dsimp only
  split
  · exact ⟨_, _, rfl⟩
  · exact ⟨_, _, rfl⟩

theorem offset_ensureVisible (h : e.offset ≤ e.selected)
    (hv : 0 < e.height → e.selected < e.offset + e.height ∧ e.offset ≤ e.rows.length - e.height) :
    (ensureVisible e).offset = e.offset := by
  unfold ensureVisible
  dsimp only
  rw [if_neg (Nat.not_lt.mpr h)]
  by_cases hh : e.height = 0
  · rw [if_pos hh]
  · obtain ⟨hsel, hoff⟩ := hv (Nat.pos_of_ne_zero hh)
    rw [if_neg hh]
    dsimp only
    rw [if_neg (by omega)]
    exact Nat.min_eq_left hoff

theorem placeCursor?_eq {e' : Engine} {c : Cursor} (h : e.placeCursor? c = some e') :
    ∃ i, e' = ensureVisible { e with selected := i } := by
  unfold placeCursor? at h
  obtain ⟨i, -, rfl⟩ := Option.map_eq_some_iff.mp h
  exact ⟨i, rfl⟩

theorem clampCursor_eq (e : Engine) :
    e.clampCursor = ensureVisible { e with selected := min e.selected (e.rows.length - 1) } := by
  unfold clampCursor
  split
  · rw [Nat.min_eq_right (by omega)]
  · rw [Nat.min_eq_left (by omega)]

theorem rowOf_session_isSome {rows : List Row} {id : String} {d : Nat}
    (h : Row.session id d ∈ rows) : (rowOf rows (.session id)).isSome := by
  unfold rowOf
  rw [List.findIdx?_isSome, List.any_eq_true]
  exact ⟨_, h, by simp⟩

/-- `y` is `x` with the cursor moved and the window scrolled to it. -/
def ScrollsTo (x y : Engine) : Prop := ∃ selected, y = ensureVisible { x with selected }

theorem scrollsTo_placeCursor? {x y : Engine} {c : Cursor} (h : x.placeCursor? c = some y) :
    ScrollsTo x y :=
  placeCursor?_eq h

theorem scrollsTo_clampCursor (x : Engine) : ScrollsTo x x.clampCursor := ⟨_, clampCursor_eq x⟩

theorem scrollsTo_placeOrClamp (x : Engine) (c : Cursor) : ScrollsTo x (x.placeOrClamp c) := by
  unfold placeOrClamp
  cases hc : x.placeCursor? c with
  | none => exact scrollsTo_clampCursor x
  | some y => exact scrollsTo_placeCursor? hc

theorem applyRestore_scrolls (e : Engine) (r : Restore) :
    ∃ x : Engine, ScrollsTo x (e.applyRestore r).1 ∧ x.offset = r.offset ∧ x.height = e.height := by
  unfold applyRestore
  dsimp only
  split
  · next y h => exact ⟨_, scrollsTo_placeCursor? h, rfl, rfl⟩
  · split
    · split
      · exact ⟨_, scrollsTo_placeOrClamp _ r.cursor, rfl, rfl⟩
      · exact ⟨_, scrollsTo_clampCursor _, rfl, rfl⟩
    · exact ⟨_, scrollsTo_clampCursor _, rfl, rfl⟩

theorem offset_applyRestore (e : Engine) (r : Restore)
    (h : r.offset ≤ (e.applyRestore r).1.selected)
    (hv : 0 < e.height → (e.applyRestore r).1.selected < r.offset + e.height ∧
      r.offset ≤ (e.applyRestore r).1.rows.length - e.height) :
    (e.applyRestore r).1.offset = r.offset := by
  obtain ⟨x, ⟨sel, hy⟩, hxo, hxh⟩ := applyRestore_scrolls e r
  obtain ⟨o, f, ho⟩ := ensureVisible_eq { x with selected := sel }
  rw [hy, ho] at h hv
  rw [hy, ← hxo]
  exact offset_ensureVisible (e := { x with selected := sel }) (hxo ▸ h) (hxh ▸ hxo ▸ hv)

theorem applyRestore_of_shown {r : Restore} (h : (rowOf e.rows r.cursor).isSome) :
    (e.applyRestore r).1.groups = e.groups ∧ (e.applyRestore r).1.rows = e.rows ∧
      (e.applyRestore r).1.cursor = r.cursor := by
  obtain ⟨y, hy⟩ := Option.isSome_iff_exists.mp
    (show ({ e with offset := r.offset }.placeCursor? r.cursor).isSome by
      simpa [placeCursor?] using h)
  unfold applyRestore
  dsimp only
  rw [hy]
  obtain ⟨i, rfl⟩ := placeCursor?_eq hy
  obtain ⟨o, f, ho⟩ := ensureVisible_eq { e with offset := r.offset, selected := i }
  refine ⟨by rw [ho], by rw [ho], cursor_placeCursor? hy⟩

theorem ScrollsTo.groups {x y : Engine} (h : ScrollsTo x y) : y.groups = x.groups := by
  obtain ⟨sel, rfl⟩ := h
  obtain ⟨o, f, ho⟩ := ensureVisible_eq { x with selected := sel }
  rw [ho]

theorem ScrollsTo.rows {x y : Engine} (h : ScrollsTo x y) : y.rows = x.rows := by
  obtain ⟨sel, rfl⟩ := h
  obtain ⟨o, f, ho⟩ := ensureVisible_eq { x with selected := sel }
  rw [ho]

theorem cursor_placeOrClamp {x : Engine} {c : Cursor} (h : (rowOf x.rows c).isSome) :
    (x.placeOrClamp c).cursor = c := by
  obtain ⟨y, hy⟩ := Option.isSome_iff_exists.mp (show (x.placeCursor? c).isSome by
    simpa [placeCursor?] using h)
  unfold placeOrClamp
  rw [hy]
  exact cursor_placeCursor? hy

theorem applyRestore_of_hidden {r : Restore} {id : String} {s : Session}
    (hc : r.cursor = .session id) (hrow : rowOf e.rows r.cursor = none)
    (hs : e.session? id = some s) :
    (e.applyRestore r).1.groups = e.groups.expandTo s.groupPath ∧
      (e.applyRestore r).1.rows = buildRows e.sessions (e.groups.expandTo s.groupPath) ∧
      ((rowOf (buildRows e.sessions (e.groups.expandTo s.groupPath)) r.cursor).isSome →
        (e.applyRestore r).1.cursor = r.cursor) := by
  have hnone : { e with offset := r.offset }.placeCursor? r.cursor = none := by
    simp [placeCursor?, hrow]
  have hs' : { e with offset := r.offset }.session? id = some s := hs
  -- the state with the groups unfolded, where the cursor is placed or kept in the rows
  have heq : (e.applyRestore r).1 =
      { e with offset := r.offset, groups := e.groups.expandTo s.groupPath,
               rows := buildRows e.sessions (e.groups.expandTo s.groupPath) }.placeOrClamp
        r.cursor := by
    unfold applyRestore
    dsimp only
    rw [hnone]
    dsimp only
    rw [hc]
    dsimp only
    rw [hs']
    rfl
  have hto := scrollsTo_placeOrClamp
    { e with offset := r.offset, groups := e.groups.expandTo s.groupPath,
             rows := buildRows e.sessions (e.groups.expandTo s.groupPath) } r.cursor
  rw [heq]
  exact ⟨hto.groups, hto.rows, fun hshown => cursor_placeOrClamp hshown⟩

theorem applyRestore_of_lost {r : Restore} (hrow : rowOf e.rows r.cursor = none)
    (hs : ∀ id, r.cursor = .session id → e.session? id = none) :
    (e.applyRestore r).1.groups = e.groups ∧ (e.applyRestore r).1.rows = e.rows ∧
      (e.applyRestore r).1.selected = min e.selected (e.rows.length - 1) := by
  have hnone : { e with offset := r.offset }.placeCursor? r.cursor = none := by
    simp [placeCursor?, hrow]
  have hclamp : ((e.applyRestore r).1 = { e with offset := r.offset }.clampCursor) := by
    unfold applyRestore
    dsimp only
    rw [hnone]
    dsimp only
    split
    · next id hid =>
      have hs' : { e with offset := r.offset }.session? id = none := hs id hid
      rw [hs']
    · rfl
  obtain ⟨o, f, ho⟩ := ensureVisible_eq
    { e with offset := r.offset, selected := min e.selected (e.rows.length - 1) }
  rw [hclamp, clampCursor_eq]
  exact ⟨by rw [ho], by rw [ho], by rw [ho]⟩

/-! ### What an install leaves -/

variable {snap : Snapshot} {r : Restore}

theorem install_eq_applyRestore (e : Engine) (snap : Snapshot) (r : Restore) :
    ∃ (x : Engine) (cache : TtlCache CacheValue),
      (e.install snap r).1 = { (x.applyRestore r).1 with cache } ∧
      x.sessions = (e.reloadedSessions snap.sessions).1 ∧ x.tasks = snap.tasks ∧
      x.groups = ((GroupTree.ofParts snap.groups (e.reloadedSessions snap.sessions).1).mergeExpansion
        r.expansion).1 ∧
      x.rows = buildRows x.sessions x.groups ∧ x.selected = e.selected ∧ x.height = e.height := by
  unfold install
  dsimp only
  exact ⟨_, _, rfl, rfl, rfl, rfl, rfl, rfl, rfl⟩

/-- **What an install leaves.** With no id renamed twice and no path captured twice: the sessions
are `installedSessions`, the tasks are the snapshot's, and the rows are built from the sessions
and the groups. The groups are the snapshot's with the captured flags laid over, and the cursor
goes on the captured item when it has a row there; a captured session whose row is hidden gets
its group and the groups above it unfolded; a captured item that is gone leaves the cursor
where it was, within the rows. The scroll position asked for is kept when it shows the
cursor. -/
theorem install_lands (htitles : (e.pendingTitles.map Prod.fst).Nodup)
    (hkeys : (r.expansion.map Prod.fst).Nodup) :
    let ss := e.installedSessions snap.sessions
    let t := (GroupTree.ofParts snap.groups ss).overlay fun p => List.lookup p r.expansion
    (e.install snap r).1.sessions = ss ∧ (e.install snap r).1.tasks = snap.tasks ∧
      (e.install snap r).1.rows = buildRows ss (e.install snap r).1.groups ∧
      (e.install snap r).1.height = e.height ∧
      ((rowOf (buildRows ss t) r.cursor).isSome →
        (e.install snap r).1.groups = t ∧ (e.install snap r).1.cursor = r.cursor) ∧
      (∀ s ∈ ss, r.cursor = .session s.id → rowOf (buildRows ss t) r.cursor = none →
        (e.install snap r).1.groups = t.expandTo s.groupPath ∧
          ((rowOf (buildRows ss (t.expandTo s.groupPath)) r.cursor).isSome →
            (e.install snap r).1.cursor = r.cursor)) ∧
      (rowOf (buildRows ss t) r.cursor = none → (∀ s ∈ ss, r.cursor ≠ .session s.id) →
        (e.install snap r).1.groups = t ∧
          (e.install snap r).1.selected = min e.selected ((buildRows ss t).length - 1)) ∧
      (r.offset ≤ (e.install snap r).1.selected →
        (0 < e.height → (e.install snap r).1.selected < r.offset + e.height ∧
          r.offset ≤ (e.install snap r).1.rows.length - e.height) →
        (e.install snap r).1.offset = r.offset) := by
  intro ss t
  have hdrawn := (viewOk_install tableLaw_true e snap r fun _ => trivial).rows
  obtain ⟨x, cache, hI, hxs, hxt, hxg, hxr, hxsel, hxh⟩ := install_eq_applyRestore e snap r
  -- the sessions and the groups the folds compute are the plain ones
  have hss : x.sessions = ss := hxs.trans (reloadedSessions_fst e snap.sessions htitles)
  have hgt : x.groups = t := by
    rw [hxg, reloadedSessions_fst e snap.sessions htitles,
      GroupTree.mergeExpansion_eq_overlay _ hkeys]
  have hrt : x.rows = buildRows ss t := by rw [hxr, hss, hgt]
  have hnodup : (x.sessions.map (·.id)).Nodup := hxs ▸ nodup_ids_reloadedSessions e snap.sessions
  obtain ⟨g, rs, sel, off, f, hv⟩ := view_applyRestore x r
  have hys : (x.applyRestore r).1.sessions = x.sessions := by rw [hv]
  rw [hI] at hdrawn ⊢
  dsimp only at hdrawn ⊢
  refine ⟨hys.trans hss, by rw [hv]; exact hxt, by rw [hdrawn, hys, hss], by rw [hv]; exact hxh,
    fun hshown => ?_, fun s hs hc hrow => ?_, fun hrow hno => ?_, fun hsel hwin => ?_⟩
  · -- the captured item has a row
    obtain ⟨hg, -, hcur⟩ := applyRestore_of_shown (hrt ▸ hshown)
    exact ⟨hg.trans hgt, hcur⟩
  · -- a captured session whose row is hidden
    have hsx : x.session? s.id = some s := session?_of_mem hnodup (hss ▸ hs)
    obtain ⟨hg, -, hcur⟩ := applyRestore_of_hidden hc (hrt ▸ hrow) hsx
    refine ⟨by rw [hg, hgt], fun hsh => hcur ?_⟩
    rw [hss, hgt]
    exact hsh
  · -- a captured item that is gone
    have hlost : ∀ id, r.cursor = .session id → x.session? id = none := by
      intro id hid
      cases hsx : x.session? id with
      | none => rfl
      | some s' =>
        have hmem : s' ∈ ss := hss ▸ List.mem_of_find?_eq_some hsx
        exact absurd (hid.trans (congrArg Cursor.session (session?_id hsx).symm)) (hno s' hmem)
    obtain ⟨hg, -, hsel⟩ := applyRestore_of_lost (hrt ▸ hrow) hlost
    exact ⟨hg.trans hgt, by rw [hsel, hxsel, hrt]⟩
  · exact offset_applyRestore x r hsel fun hpos => hwin (hxh ▸ hpos) |>.imp (hxh ▸ ·) (hxh ▸ ·)


/-! ### What the rest of a landing leaves -/

/-- `e'` holds the sessions and the tasks of `e`. -/
structure Holds (e e' : Engine) : Prop where
  sessions : e'.sessions = e.sessions
  tasks : e'.tasks = e.tasks

theorem Holds.refl (e : Engine) : Holds e e := ⟨rfl, rfl⟩

theorem Holds.trans {e₁ e' : Engine} (h₁ : Holds e e₁) (h₂ : Holds e₁ e') : Holds e e' :=
  ⟨h₂.sessions.trans h₁.sessions, h₂.tasks.trans h₁.tasks⟩

theorem holds_beginFetch (e : Engine) (id : String) (f : Field) : Holds e (e.beginFetch id f).1 := by
  unfold beginFetch
  split
  · exact Holds.refl e
  · split <;> exact ⟨rfl, rfl⟩

theorem holds_fetchPreview (e : Engine) (id : String) : Holds e (e.fetchPreview id) := by
  unfold fetchPreview
  have hb := holds_beginFetch e id .preview
  rcases hc : e.beginFetch id .preview with ⟨e₁, claimed⟩
  rw [hc] at hb
  dsimp only
  split
  · exact hb
  · split
    · exact hb.trans ⟨rfl, rfl⟩
    · exact hb.trans ⟨rfl, rfl⟩

theorem holds_fetchSideData (e : Engine) (id : String) : Holds e (e.fetchSideData id) := by
  have hclaim : ∀ (e : Engine) (f : Field) (j : Job),
      Holds e (if (e.beginFetch id f).2 then (e.beginFetch id f).1.spawn j
        else (e.beginFetch id f).1) := by
    intro e f j
    split
    · exact (holds_beginFetch e id f).trans ⟨rfl, rfl⟩
    · exact holds_beginFetch e id f
  unfold fetchSideData
  split
  · exact Holds.refl e
  · split
    · exact holds_fetchPreview e id
    · exact (holds_fetchPreview e id).trans ((hclaim _ _ _).trans ((hclaim _ _ _).trans
        (hclaim _ _ _)))

theorem holds_fetchSelected (e : Engine) :
    Holds e (match e.selectedId? with
      | some id => e.fetchSideData id
      | none => e) := by
  split
  · exact holds_fetchSideData _ _
  · exact Holds.refl e

theorem holds_scheduleSave (e : Engine) : Holds e e.scheduleSave := by
  unfold scheduleSave
  split
  · exact Holds.refl e
  · exact ⟨rfl, rfl⟩

/-! ### A load that lands -/

/-- Where a load that lands puts the cursor back: on the item under the cursor when it lands,
or, when the cursor is on nothing, on the item captured when the reload began, at the scroll
position captured then; with the fold-out flags as they are when it lands. -/
def landing (e : Engine) : Restore :=
  if e.cursor == .none then { e.restore.getD {} with expansion := e.groups.expansion }
  else e.captureRestore

theorem landing_expansion (e : Engine) : e.landing.expansion = e.groups.expansion := by
  unfold landing
  split <;> rfl

/-- The groups a load that lands with `snap` installs before putting the cursor back: the saved
groups with members derived from the installed sessions, each with the fold-out flag the group at
its path has when the load lands. -/
def landingGroups (e : Engine) (snap : Snapshot) : GroupTree :=
  (GroupTree.ofParts snap.groups (e.installedSessions snap.sessions)).overlay fun p =>
    (e.groups.get? p).map (·.expanded)

/-- What a load that lands on `e` with `snap` leaves in `e'`. -/
structure Installs (e : Engine) (snap : Snapshot) (e' : Engine) : Prop where
  /-- The first of each id among the loaded sessions not deleted meanwhile, with their live
  status, then the sessions stored meanwhile whose ids are not taken, with the titles renamed
  meanwhile. -/
  sessions : e'.sessions = e.installedSessions snap.sessions
  tasks : e'.tasks = snap.tasks
  rows : e'.rows = buildRows e'.sessions e'.groups
  /-- The captured item has a row: the cursor goes on it. -/
  shown : (rowOf (buildRows (e.installedSessions snap.sessions) (e.landingGroups snap))
      e.landing.cursor).isSome →
    e'.groups = e.landingGroups snap ∧ e'.cursor = e.landing.cursor
  /-- The captured session's row is hidden: its group and every group above it are unfolded,
  and the cursor goes on it when the saved table holds the groups above each of its groups. -/
  hidden : ∀ s ∈ e.installedSessions snap.sessions, e.landing.cursor = .session s.id →
    rowOf (buildRows (e.installedSessions snap.sessions) (e.landingGroups snap))
      e.landing.cursor = none →
    e'.groups = (e.landingGroups snap).expandTo s.groupPath ∧
      (∀ a, a = s.groupPath ∨ GroupTree.IsAncestor a s.groupPath →
        e'.groups.isExpanded a = true) ∧
      ((GroupTree.ofGroups snap.groups).Closed → e'.cursor = e.landing.cursor)
  /-- The captured item is gone: the cursor stays where it was, within the rows. -/
  lost : rowOf (buildRows (e.installedSessions snap.sessions) (e.landingGroups snap))
      e.landing.cursor = none →
    (∀ s ∈ e.installedSessions snap.sessions, e.landing.cursor ≠ .session s.id) →
    e'.groups = e.landingGroups snap ∧
      e'.selected = min e.selected
        ((buildRows (e.installedSessions snap.sessions) (e.landingGroups snap)).length - 1)
  /-- The captured scroll position is kept when it shows the cursor. -/
  offset : e.landing.offset ≤ e'.selected →
    (0 < e'.height → e'.selected < e.landing.offset + e'.height ∧
      e.landing.offset ≤ e'.rows.length - e'.height) →
    e'.offset = e.landing.offset

variable {version : Nat}

theorem finishReload_landing (hv : version = e.reloadVersion) (hr : e.reloading = true)
    (snap : Snapshot) :
    e.finishReload version (.ok snap) =
      let e₂ := { ({ e with restore := none }.install snap e.landing).1 with reloading := false
                }.dropLandedDeletes
      let e₃ := match e₂.selectedId? with
        | some id => e₂.fetchSideData id
        | none => e₂
      if ({ e with restore := none }.install snap e.landing).2 then e₃.scheduleSave else e₃ := by
  unfold finishReload
  rw [if_neg (by simp [hv, hr])]
  rfl

theorem finishReload_after_install (hv : version = e.reloadVersion) (hr : e.reloading = true)
    (snap : Snapshot) :
    Holds ({ e with restore := none }.install snap e.landing).1
        (e.finishReload version (.ok snap)) ∧
      Keeps ({ e with restore := none }.install snap e.landing).1
        (e.finishReload version (.ok snap)) := by
  rw [finishReload_landing hv hr snap]
  dsimp only
  -- ending the reload and dropping guards change neither the data nor the view
  split
  · refine ⟨Holds.trans ?_ ((holds_fetchSelected _).trans (holds_scheduleSave _)),
      Keeps.trans ?_ ((keeps_fetchSelected _).trans (keeps_scheduleSave _))⟩
    · exact ⟨rfl, rfl⟩
    · rfl
  · refine ⟨Holds.trans ?_ (holds_fetchSelected _), Keeps.trans ?_ (keeps_fetchSelected _)⟩
    · exact ⟨rfl, rfl⟩
    · rfl

theorem installedSessions_restore (e : Engine) (r : Option Restore) (loaded : List Session) :
    { e with restore := r }.installedSessions loaded = e.installedSessions loaded := rfl

theorem shown_of_closed {gs : List Group} (hcl : (GroupTree.ofGroups gs).Closed) {ss : List Session}
    {s : Session} (hs : s ∈ ss) (flag? : String → Option Bool) :
    (rowOf (buildRows ss (((GroupTree.ofParts gs ss).overlay flag?).expandTo s.groupPath))
      (.session s.id)).isSome := by
  have htc : ((GroupTree.ofParts gs ss).overlay flag?).Closed :=
    (GroupTree.closed_ofParts hcl ss).of_listing (GroupTree.listing_overlay _ _)
  -- the session's group is in the table, and so is every group above it
  have hpaths : s.groupPath ≠ "" → ∀ a, a = s.groupPath ∨ GroupTree.IsAncestor a s.groupPath →
      a ∈ (((GroupTree.ofParts gs ss).overlay flag?).expandTo s.groupPath).groups.map (·.path) := by
    intro hne a ha
    have hp : s.groupPath ∈ ((GroupTree.ofParts gs ss).overlay flag?).groups.map (·.path) := by
      rw [GroupTree.paths_overlay]
      exact GroupTree.mem_paths_syncSessions hs hne _
    rw [(GroupTree.unfolds_expandTo _ s.groupPath).paths]
    rcases ha with rfl | ha
    · exact hp
    · exact htc _ hp a ha
  obtain ⟨d, hd⟩ := session_mem_buildRows hs hpaths fun a ha => GroupTree.isExpanded_expandTo _ ha
  exact rowOf_session_isSome hd

/-- **What a reload installs.** When the load of the running reload lands with a snapshot, with
no id kept aside under two titles (every state a run reaches has none: `Reachable.nodup_titles`)
and no two groups at one path (no table has two), the engine takes in the sessions, tasks and
groups that `Installs` names and puts the cursor back as it says. -/
theorem finishReload_installs (hv : version = e.reloadVersion) (hr : e.reloading = true)
    (htitles : (e.pendingTitles.map Prod.fst).Nodup)
    (hpaths : (e.groups.groups.map (·.path)).Nodup) (snap : Snapshot) :
    Installs e snap (e.finishReload version (.ok snap)) := by
  obtain ⟨hH, hK⟩ := finishReload_after_install hv hr snap
  have hkeys : (e.landing.expansion.map Prod.fst).Nodup := by
    rw [landing_expansion]
    exact GroupTree.nodup_keys_expansion _
  -- the flags laid over are those of the groups when the load lands
  have hflags : (fun p => List.lookup p e.landing.expansion) =
      fun p => (e.groups.get? p).map (·.expanded) := by
    funext p
    rw [landing_expansion, GroupTree.lookup_expansion]
  have key := @install_lands { e with restore := none } snap e.landing htitles hkeys
  simp only [installedSessions_restore, hflags] at key
  obtain ⟨hs, ht, hrows, hh, hshown, hhidden, hlost, hoff⟩ := key
  refine ⟨hH.sessions.trans hs, hH.tasks.trans ht, ?_, ?_, fun s hs' hc hrow => ?_, ?_, ?_⟩
  · rw [hK.rows, hH.sessions, hK.groups, hs]
    exact hrows
  · rw [hK.groups, hK.cursor]
    exact hshown
  · obtain ⟨hg, hcur⟩ := hhidden s hs' hc hrow
    rw [hK.groups, hK.cursor]
    refine ⟨hg, fun a ha => hg ▸ GroupTree.isExpanded_expandTo _ ha, fun hcl => hcur ?_⟩
    rw [hc]
    exact shown_of_closed hcl hs' _
  · rw [hK.groups, hK.selected]
    exact hlost
  · rw [hK.selected, hK.offset, hK.height, hK.rows, hh]
    exact hoff

/-- Two sessions booted with the cursor on the loose one and the other in a folded group, when
the registry changes underneath. -/
def reloadingDeck : Engine :=
  ((Engine.new {} ⟨"/r/sessions.json", "test"⟩ Mux.memory GitLookup.inert 0).boot
    { groups := [{ name := "a", path := "a", expanded := false }],
      sessions := [{ id := "x", title := "one", projectPath := "/p/x", groupPath := "a",
                     createdAt := World.epoch },
                   { id := "y", title := "two", projectPath := "/p/y", createdAt := World.epoch }] }
    { cursorSession := some "y" }).feed [.message .storageChanged (.ok ()) 0]

/-- The registry read back with the loose session moved into the folded group. -/
def movedSnapshot : Snapshot :=
  { groups := [{ name := "a", path := "a", expanded := false }],
    sessions := [{ id := "x", title := "one", projectPath := "/p/x", groupPath := "a",
                   createdAt := World.epoch },
                 { id := "y", title := "two", projectPath := "/p/y", groupPath := "a",
                   createdAt := World.epoch }] }

/-- The load of the reload lands with the cursor's session moved into the folded group. -/
theorem reloadingDeck_installs :
    reloadingDeck.reloadVersion = reloadingDeck.reloadVersion ∧ reloadingDeck.reloading = true ∧
      (reloadingDeck.pendingTitles.map Prod.fst).Nodup ∧
      (reloadingDeck.groups.groups.map (·.path)).Nodup ∧
      Installs reloadingDeck movedSnapshot
        (reloadingDeck.finishReload reloadingDeck.reloadVersion (.ok movedSnapshot)) := by
  have hr : reloadingDeck.reloading = true := by cbv
  have ht : reloadingDeck.pendingTitles = [] := by cbv
  have htitles : (reloadingDeck.pendingTitles.map Prod.fst).Nodup := by
    rw [ht]
    exact List.nodup_nil
  exact ⟨rfl, hr, htitles, reloadingDeck.groups.nodup,
    finishReload_installs rfl hr htitles reloadingDeck.groups.nodup movedSnapshot⟩

example :
    (reloadingDeck.finishReload reloadingDeck.reloadVersion (.ok movedSnapshot)).cursor =
        .session "y" ∧
      (reloadingDeck.finishReload reloadingDeck.reloadVersion (.ok movedSnapshot)).groups.isExpanded
        "a" = true := by
  cbv

/-- Two loose sessions booted with the cursor on the first, when the registry changes
underneath. -/
def looseDeck : Engine :=
  ((Engine.new {} ⟨"/r/sessions.json", "test"⟩ Mux.memory GitLookup.inert 0).boot
    { sessions := [{ id := "x", title := "one", projectPath := "/p/x", createdAt := World.epoch },
                   { id := "y", title := "two", projectPath := "/p/y", createdAt := World.epoch }] }
    { cursorSession := some "x" }).feed [.message .storageChanged (.ok ()) 0]

theorem looseDeck_reachable : looseDeck.Reachable :=
  ⟨{}, ⟨"/r/sessions.json", "test"⟩, Mux.memory, GitLookup.inert, 0, _, _, _, trivial,
    fun _ _ _ _ => trivial, rfl⟩

/-- The registry read back with the first session moved into a group whose parent group is not
saved. -/
def orphanedSnapshot : Snapshot :=
  { groups := [{ name := "b", path := "a/b" }],
    sessions := [{ id := "x", title := "one", projectPath := "/p/x", groupPath := "a/b",
                   createdAt := World.epoch },
                 { id := "y", title := "two", projectPath := "/p/y", createdAt := World.epoch }] }

/-- A session moved into a group whose parent group is not saved has no row, whatever is
unfolded, so the cursor does not go back on it: it stays on the first row. -/
theorem orphaned_session_loses_cursor :
    ¬ ∀ e : Engine, e.Reachable → e.reloading = true → ∀ (snap : Snapshot) (id : String),
      id ∈ (e.installedSessions snap.sessions).map (·.id) → e.landing.cursor = .session id →
        (e.finishReload e.reloadVersion (.ok snap)).cursor = .session id := by
  intro hall
  have hr : looseDeck.reloading = true := by cbv
  have hids : (looseDeck.installedSessions orphanedSnapshot.sessions).map (·.id) = ["x", "y"] := by
    cbv
  have hland : looseDeck.landing.cursor = .session "x" := by cbv
  have hafter :
      (looseDeck.finishReload looseDeck.reloadVersion (.ok orphanedSnapshot)).cursor =
        .session "y" := by
    cbv
  have hback := hall looseDeck looseDeck_reachable hr orphanedSnapshot "x" (by simp [hids]) hland
  rw [hafter] at hback
  simp at hback

end Engine

end AgentDeck
