import AgentDeck.Engine.Basic

/-!
The visible rows of the session tree, and the cursor over them.

Sessions without a group come first, by title then id. Then each root group follows, depth
first: a group's row, and if it is unfolded, its child groups and then its own sessions. The
cursor stays on the same session or group when the rows change, wherever that item moves;
the scroll position keeps the cursor within the visible window.
-/

namespace AgentDeck

/-- Sessions in display order. -/
def sortSessions (ss : List Session) : List Session := ss.mergeSort GroupTree.memberBefore

/-- The rows of the group at `path` at `depth`, and of everything unfolded below it. -/
def groupRows (ss : List Session) (t : GroupTree) : Nat → String → Nat → List Row
  | 0, _, _ => []
  | fuel + 1, path, depth =>
    let name := match t.get? path with
      | some g => g.name
      | none => (Group.ofPath path).name
    let here := Row.group path name depth
    if !t.isExpanded path then [here]
    else
      let below := (t.children path).flatMap fun c => groupRows ss t fuel c (depth + 1)
      let own := ss.filter fun s => !s.groupPath.isEmpty && s.groupPath == path
      let members := (sortSessions own).map fun s => Row.session s.id (depth + 1)
      here :: below ++ members

/-- The visible rows of sessions and groups. -/
def buildRows (ss : List Session) (t : GroupTree) : List Row :=
  let loose := (sortSessions (ss.filter (·.groupPath.isEmpty))).map fun s => Row.session s.id 0
  loose ++ t.roots.flatMap fun r => groupRows ss t (t.size + 1) r 0

namespace Engine

/-- What the cursor is on. -/
def cursor (e : Engine) : Cursor :=
  match e.selectedRow? with
  | some (.session id _) => .session id
  | some (.group path _ _) => .group path
  | none => .none

/-- The sums scrolling to the cursor computes in machine words: with a height, the end of the
window once its start is pulled up to the cursor, and, when the cursor lies at or below that end,
the row after the cursor. -/
def scrollSums (e : Engine) : List Nat :=
  let top := if e.selected < e.offset then e.selected else e.offset
  if e.height = 0 then []
  else if top + e.height ≤ e.selected then [top + e.height, e.selected + 1]
  else [top + e.height]

/-- The fault a sum past the largest machine word raises. -/
def addOverflow : String := "attempt to add with overflow"

/-- Scroll so that the cursor's row is visible. A sum that leaves a machine word is a fault. -/
def ensureVisible (e : Engine) : Engine :=
  let fault := if e.scrollSums.all (· < UInt64.size) then e.fault else some addOverflow
  let offset := if e.selected < e.offset then e.selected else e.offset
  if e.height = 0 then { e with offset }
  else
    let offset := if offset + e.height ≤ e.selected then e.selected + 1 - e.height else offset
    { e with offset := min offset (e.rows.length - e.height), fault }

/-- The row showing `c`. -/
def rowOf (rows : List Row) (c : Cursor) : Option Nat :=
  rows.findIdx? fun r => match r, c with
    | .session id _, .session want => id == want
    | .group path _ _, .group want => path == want
    | _, _ => false

/-- Move the cursor onto the row of `c`; `none` if it is not visible. -/
def placeCursor? (e : Engine) (c : Cursor) : Option Engine :=
  (rowOf e.rows c).map fun i => ensureVisible { e with selected := i }

/-- Keep the cursor within the rows. -/
def clampCursor (e : Engine) : Engine :=
  ensureVisible (if e.rows.length ≤ e.selected then { e with selected := e.rows.length - 1 } else e)

/-- Move the cursor onto `c`, or keep it within the rows if `c` is not visible. -/
def placeOrClamp (e : Engine) (c : Cursor) : Engine := (e.placeCursor? c).getD e.clampCursor

/-- Derive group members and rows again, keeping the cursor on its item. -/
def rebuildView (e : Engine) : Engine :=
  let c := e.cursor
  let groups := e.groups.syncSessions e.sessions
  { e with groups, rows := buildRows e.sessions groups }.placeOrClamp c

/-- The view as it is now. -/
def captureRestore (e : Engine) : Restore :=
  { cursor := e.cursor, offset := e.offset, expansion := e.groups.expansion }

/-- Put cursor and scroll position back as `r` says. A session that moved into a folded
group gets its group unfolded; tells whether that changed any fold-out flag. -/
def applyRestore (e : Engine) (r : Restore) : Engine × Bool :=
  let e := { e with offset := r.offset }
  match e.placeCursor? r.cursor with
  | some e => (e, false)
  | none =>
    match r.cursor with
    | .session id =>
      match e.session? id with
      | some s =>
        let groups := e.groups.expandTo s.groupPath
        let expanded := e.groups.expansion != groups.expansion
        let e := { e with groups, rows := buildRows e.sessions groups }
        ((e.placeCursor? r.cursor).getD e.clampCursor, expanded)
      | none => (e.clampCursor, false)
    | _ => (e.clampCursor, false)

/-- The view state to keep between runs. -/
def viewState (e : Engine) : ViewState :=
  match e.cursor with
  | .session id => { cursorSession := some id, offset := e.offset }
  | .group path => { cursorGroup := some path, offset := e.offset }
  | .none => { offset := e.offset }

/-- Move the cursor by `delta` rows, stopping at either end. -/
def moveCursor (e : Engine) (delta : Int) : Engine :=
  if e.rows.isEmpty then e
  else
    let last := e.rows.length - 1
    let target := min (e.selected + delta).toNat last
    (ensureVisible { e with selected := target }).onNavigation

/-- Put the cursor on a session, unfolding its group if needed; false if there is none. -/
def selectSession (e : Engine) (id : String) : Engine × Bool :=
  match e.placeCursor? (.session id) with
  | some e => (e.onNavigation, true)
  | none =>
    match e.session? id with
    | none => (e, false)
    | some s =>
      let groups := e.groups.expandTo s.groupPath
      let e := { e with groups, rows := buildRows e.sessions groups }
      match e.placeCursor? (.session id) with
      | some e => (e.scheduleSave.onNavigation, true)
      | none => (e, false)

/-- Put the cursor on a visible group; false if there is none. -/
def selectGroup (e : Engine) (path : String) : Engine × Bool :=
  match e.placeCursor? (.group path) with
  | some e => (e.onNavigation, true)
  | none => (e, false)

/-- Fold a group in or out; the cursor stays on its item, or goes to the group if the item
is hidden. -/
def toggleGroup (e : Engine) (path : String) : Engine :=
  if (e.groups.get? path).isNone then e
  else
    let c := e.cursor
    let groups := e.groups.toggle path
    let e := { e with groups, rows := buildRows e.sessions groups }
    let e := match e.placeCursor? c with
      | some e => e
      | none => e.placeOrClamp (.group path)
    e.scheduleSave.onNavigation

/-- Show `height` rows at once. -/
def setHeight (e : Engine) (height : Nat) : Engine := ensureVisible { e with height }

/-- Rename a session. During a reload the new title is kept aside and put back once the
reloaded state is in place. -/
def renameSession (e : Engine) (id title : String) : Engine × Bool :=
  match e.session? id with
  | none => (e, false)
  | some _ =>
    let e := (e.modifySession id fun s => { s with title }).rebuildView
    let e := if e.reloading then { e with pendingTitles := putKey e.pendingTitles id title }
      else e.scheduleSave
    (e.markActivity, true)

end Engine

/-- What the user does to the view besides sending messages. -/
inductive Call where
  | moveCursor (delta : Int)
  | selectSession (id : String)
  | selectGroup (path : String)
  | toggleGroup (path : String)
  | setHeight (height : Nat)
  | rename (id title : String)

namespace Engine

/-- Do a call on the view. -/
def call (e : Engine) : Call → Engine
  | .moveCursor delta => e.moveCursor delta
  | .selectSession id => (e.selectSession id).1
  | .selectGroup path => (e.selectGroup path).1
  | .toggleGroup path => e.toggleGroup path
  | .setHeight height => e.setHeight height
  | .rename id title => (e.renameSession id title).1

end Engine

end AgentDeck
