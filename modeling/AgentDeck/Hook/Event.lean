import AgentDeck.Time.Stamp

/-!
What an agent's hook reports about a session: that it started working on a prompt, or that
it stopped and waits for input. A report names the session and may carry the agent's own
conversation id, the hook's name, the working directory and when it was written.
-/

namespace AgentDeck

open AgentDeck.Time

/-- What the hook reported. -/
inductive HookKind where
  /-- The agent started working on a prompt. -/
  | activity
  /-- The agent finished and waits for input. -/
  | stop
  deriving DecidableEq, Repr, Inhabited

/-- One hook report for a session. -/
structure HookEvent where
  instanceId : String
  /-- The agent's conversation id, when the hook knows it. -/
  conversation : Option String := none
  kind : HookKind
  /-- The hook's name as the agent reported it. -/
  rawEvent : String := ""
  cwd : Option String := none
  timestamp : Option Stamp := none
  deriving Repr, Inhabited

end AgentDeck
