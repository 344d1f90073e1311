/-!
The hook script an agent runs on its events.

Called with the kind of report (`active` or `stop`) and the report directory, it reads the
hook's JSON payload from standard input, picks the conversation id, event name and working
directory out of it, and drops a small JSON file named after the session into the
directory. It writes a temporary file first and moves it into place, so a reader never sees
half a report. Outside a dashboard session it does nothing.
-/

namespace AgentDeck.Hook

/-- The lines of the script. -/
def scriptLines : List String :=
  [
   "#!/bin/sh",
   "# deckhand status hook: drops <instance>.<kind> into the event directory.",
   "# Usage: status_hook.sh <active|stop> <events-dir>",
   "# The agent passes the hook payload as JSON on stdin.",
   "",
   "kind=\"$1\"",
   "dir=\"$2\"",
   "",
   "[ -n \"$DECKHAND_INSTANCE_ID\" ] || exit 0",
   "[ -n \"$kind\" ] && [ -n \"$dir\" ] || exit 0",
   "",
   "input=$(cat)",
   "",
   "field() \x7b",
   "  printf '%s' \"$input\" \\",
   "    | sed -n \"s/.*\\\"$1\\\"[[:space:]]*:[[:space:]]*\\\"\\([^\\\"]*\\)\\\".*/\\1/p\" \\",
   "    | head -n 1",
   "\x7d",
   "",
   "session_id=$(field session_id)",
   "event=$(field hook_event_name)",
   "cwd=$(field cwd)",
   "",
   "mkdir -p \"$dir\" || exit 0",
   "",
   "tmp=\"$dir/.$DECKHAND_INSTANCE_ID.$$.tmp\"",
   "printf '\x7b\"instance_id\":\"%s\",\"session_id\":\"%s\",\"event\":\"%s\",\"cwd\":\"%s\",\"timestamp\":%s\x7d\\n' \\",
   "  \"$DECKHAND_INSTANCE_ID\" \"$session_id\" \"$event\" \"$cwd\" \"$(date +%s)\" > \"$tmp\" \\",
   "  && mv -f \"$tmp\" \"$dir/$DECKHAND_INSTANCE_ID.$kind\"",
   "",
   "exit 0"
  ]

/-- The script's text: its lines, each ended by a line feed. -/
def script : String := String.join (scriptLines.map (· ++ "\n"))

end AgentDeck.Hook
