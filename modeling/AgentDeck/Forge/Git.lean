import AgentDeck.World
import AgentDeck.Forge.Review

/-!
Lookups on a worktree: whether it has uncommitted changes, the URL of its remote, and the
review of the branch checked out there.

Besides the lookups that run `git` and `gh`, there is an inert one (`GitLookup.inert`) that
finds a clean worktree with no remote and no review, and records every call it answers.
-/

namespace AgentDeck

/-- The lookups, each given the worktree's path. -/
structure GitLookup where
  isDirty : String → Act Bool
  remoteUrl : String → Act String
  /-- `none` when the branch has no review. -/
  review : String → Act (Option Review)

namespace GitLookup

/-- Lookups that find nothing and record their calls. -/
def inert : GitLookup where
  isDirty path := do Act.note ("git_dirty " ++ path); return false
  remoteUrl path := do Act.note ("git_remote " ++ path); return ""
  review path := do Act.note ("git_review " ++ path); return none

end GitLookup

end AgentDeck
