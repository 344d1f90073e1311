import AgentDeck.Engine.Basic
import AgentDeck.Text.Width
import AgentDeck.Text.Lines
import AgentDeck.Text.Ansi
import AgentDeck.Text.Blank

/-!
The dashboard as plain text, 80 columns wide.

A header names the profile and counts the sessions; then come the visible rows, the cursor's
row marked with `>`, and a count of the rows below the window. The selected session gets a
detail section: its title, status and directory, for a worktree its branch, dirty flag,
review and remote, and then its preview. A banner, if any, closes the page. Every line is cut
to the width, the cut marked with an ellipsis.
-/

namespace AgentDeck

namespace Render

/-- Columns of a line. -/
def width : Nat := 80

/-- One line of the page. -/
def line (text : String) : String := text.fitColumns width ++ "\n"

/-- A line across the page. -/
def rule : String := line (String.ofList (List.replicate width '─'))

/-- Two spaces per level of depth. -/
def indent (depth : Nat) : String := String.join (List.replicate depth "  ")

/-- The row of a group: fold-out mark, name, and how many sessions lie below it. -/
def groupRow (e : Engine) (path name : String) (depth : Nat) : String :=
  let icon := if e.groups.isExpanded path then "▾" else "▸"
  let count := (e.sessions.filter fun s =>
    s.groupPath == path || s.groupPath.startsWith (path ++ "/")).length
  indent depth ++ icon ++ " " ++ name ++ " (" ++ toString count ++ ")"

/-- The row of a session: status glyph, title, and its animation if one runs. -/
def sessionRow (e : Engine) (s : Session) (depth : Nat) : String :=
  let row := indent depth ++ s.status.glyph ++ " " ++ s.title
  match e.animations.kindOf s.id with
  | some k => row ++ "  " ++ e.animations.frameText ++ " " ++ k.label
  | none => row

/-- A review as a badge. -/
def reviewBadge : Option Review → String
  | some r => "#" ++ toString r.number ++ " " ++ r.state.name
  | none => "none"

/-- A cached field shown by `view` (stale values included), `checking…` while a fetch is out,
else `-`. -/
def fieldText (e : Engine) (id : String) (f : Field) (view : CacheValue → Option String) :
    String :=
  match (e.cache.getStamped? id f).bind fun (v, _) => view v with
  | some t => t
  | none => if e.isFetching id f then "checking…" else "-"

/-- The lines of a pane preview as printed: trailing blanks dropped, escapes stripped from each
line, each line cut to the width. -/
def previewLines (text : String) : List String :=
  text.trimBlankEnd.textLines.map fun l => line l.stripEscapes

/-- The detail section of a session. -/
def detail (e : Engine) (s : Session) : String :=
  let head := line (s.title ++ " [" ++ s.status.name ++ "] " ++ s.projectPath)
  let tree := match s.worktree with
    | some w =>
      let dirty := fieldText e s.id .worktreeDirty fun
        | .dirty d => some (if d then "dirty" else "clean")
        | _ => none
      let remote := fieldText e s.id .worktreeRemote fun
        | .remote url => some url
        | _ => none
      let review := fieldText e s.id .reviewStatus fun
        | .review r => some (reviewBadge r)
        | _ => none
      line ("branch " ++ w.branch ++ " · " ++ dirty ++ " · PR " ++ review) ++ line ("remote " ++ remote)
    | none => ""
  let preview := match e.cache.getStamped? s.id .preview with
    | some (.preview text, _) => String.join (previewLines text)
    | _ => if e.isFetching s.id .preview then line "checking…" else line "(no preview)"
  head ++ tree ++ line "" ++ preview

/-- The visible rows, with the cursor's marked. -/
def rows (e : Engine) : String :=
  if e.rows.isEmpty then line "No sessions. Use: deckhand add <path>"
  else
    let start := min e.offset e.rows.length
    let stop := if e.height = 0 then e.rows.length else min (start + e.height) e.rows.length
    let shown := ((List.range (stop - start)).map (· + start)).filterMap fun i =>
      let mark := if i = e.selected then ">" else " "
      match e.rows[i]? with
      | some (.group path name depth) => some (line (mark ++ " " ++ groupRow e path name depth))
      | some (.session id depth) =>
        (e.session? id).map fun s => line (mark ++ " " ++ sessionRow e s depth)
      | none => none
    let more := if stop < e.rows.length then
        line ("  … " ++ toString (e.rows.length - stop) ++ " more")
      else ""
    String.join shown ++ more

end Render

/-- The whole dashboard as text. -/
def Engine.render (e : Engine) : String :=
  let header := "deckhand · " ++ e.registry.profile ++ " · " ++ toString e.sessions.length ++
    " sessions" ++ (if e.reloading then " · reloading…" else "")
  let detail := match e.selectedSession? with
    | some s => Render.rule ++ Render.detail e s
    | none => ""
  let banner := match e.banner with
    | some b => Render.rule ++ Render.line ("! " ++ b.text)
    | none => ""
  Render.line header ++ Render.rule ++ Render.rows e ++ detail ++ banner

end AgentDeck
