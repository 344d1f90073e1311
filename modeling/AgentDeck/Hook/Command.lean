import AgentDeck.Text.Quote

/-!
The command lines that agent hooks run.

A hook runs the status script with the kind of event it reports and the directory the event
files go to; both paths are quoted for the shell. Two agent hooks are registered: a submitted
prompt reports activity, a finished turn reports a stop.
-/

namespace AgentDeck.Hook

/-- The agent hook names and the event kind each one reports. -/
def events : List (String × String) := [("UserPromptSubmit", "active"), ("Stop", "stop")]

/-- The command line registered for the hook that reports `kind`. -/
def command (scriptPath kind eventsDir : String) : String :=
  scriptPath.shellQuote ++ " " ++ kind ++ " " ++ eventsDir.shellQuote

end AgentDeck.Hook
