import AgentDeck.Forge.Git
import AgentDeck.Error
import AgentDeck.Text.Blank
import AgentDeck.Text.Lines
import AgentDeck.Text.Search
import AgentDeck.Text.Case

/-!
Worktree lookups that run `git` and `gh`.

`git` runs with `-C` on the worktree; a failure is a git error naming the command, the
directory and the trimmed error output. A worktree is dirty when `git status --porcelain`
prints a line that is not blank. The review comes from `gh pr view` run inside the worktree:
a branch without a pull request has no review, any other failure is a failed command. Its
JSON gives the number and state; a merged or closed state wins over the draft flag.
-/

namespace AgentDeck

namespace GitLookup

/-- Run `git` on the worktree at `path`. -/
def git (path : String) (args : List String) : Act String := do
  let r ← Act.run "git" (← get).env.cwd (["-C", path] ++ args)
  if r.code != 0 then
    throw (.git ("git " ++ " ".intercalate args ++ " failed in " ++ path ++ ": " ++
      r.stderr.trimBlank))
  return r.stdout

/-- The review view `gh` prints. -/
def viewShape : Json.Shape :=
  .record "GhPrView"
    [("number", .unsigned "u64" Json.u64Max, none), ("title", .text "a string", some (.str "")),
     ("url", .text "a string", some (.str "")), ("state", .text "a string", none),
     ("isDraft", .flag, some (.bool false))]

/-- The state of a review from the forge's state name and draft flag. -/
def stateOf (state : String) (draft : Bool) : ReviewState :=
  match String.ofList (Text.upperAscii state.toList) with
  | "MERGED" => .merged
  | "CLOSED" => .closed
  | _ => if draft then .draft else .open

/-- The review in the JSON that `gh pr view` prints. -/
def parseView (text : String) : Except Error Review := do
  let j ← (Json.readDocument viewShape text).mapError .json
  let number := ((j.field? "number").bind Json.asNat?).getD 0
  let title := ((j.field? "title").bind Json.asString?).getD ""
  let url := ((j.field? "url").bind Json.asString?).getD ""
  let state := ((j.field? "state").bind Json.asString?).getD ""
  let draft := ((j.field? "isDraft").bind Json.asBool?).getD false
  return { number, title, url, state := stateOf state draft }

/-- The lookups that run `git` and `gh`. -/
def cli : GitLookup where
  isDirty path := do
    let out ← git path ["status", "--porcelain"]
    return out.textLines.any fun l => !l.trimBlank.isEmpty
  remoteUrl path := do return (← git path ["remote", "get-url", "origin"]).trimBlank
  review path := do
    let r ← Act.run "gh" path ["pr", "view", "--json", "number,title,url,state,isDraft"]
    if r.code != 0 then
      if r.stderr.holds "no pull requests found" then return none
      throw (.commandFailed ("gh pr view failed in " ++ path ++ ": " ++ r.stderr.trimBlank))
    match parseView r.stdout with
    | .ok v => return some v
    | .error e => throw e

end GitLookup

end AgentDeck
