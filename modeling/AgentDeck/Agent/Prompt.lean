import AgentDeck.Agent.Tool
import AgentDeck.Text.Ansi
import AgentDeck.Text.Blank
import AgentDeck.Text.Lines

/-!
Reading a captured pane to tell whether its agent is busy, waits for input, or has finished
starting up.

Only the last non-blank lines count, with escape sequences removed. A pane is busy when
those lines mention an interrupt key, or, for an agent, when one of the last three holds a
braille spinner frame; a busy pane never waits. A waiting pane shows a confirmation question,
one of its tool's own prompts, or ends in a bare prompt symbol. A pane is ready when it
shows its tool's start-up banner or waits.
-/

namespace AgentDeck.Prompt

open AgentDeck.Text

/-- Braille frames that agents draw while busy. -/
def spinnerFrames : List Char :=
  ['⠋', '⠙', '⠹', '⠸', '⠼', '⠴', '⠦', '⠧', '⠇', '⠏']

/-- Lower-case phrases of a busy agent. -/
def busyMarkers : List String := ["esc to interrupt", "ctrl+c to interrupt"]

/-- Confirmation questions, for every tool. -/
def confirmPatterns : List String :=
  ["(Y/n)", "[Y/n]", "(y/N)", "[y/N]", "(yes/no)", "[yes/no]", "Continue?", "Proceed?"]

/-- Permission questions of the claude agent. -/
def permissionPrompts : List String :=
  ["Yes, allow once", "Allow always", "No, and tell Claude what to do differently",
    "│ Do you want", "❯ Yes", "Do you trust the files in this folder?",
    "Allow this MCP server", "Run this command?"]

/-- The last `n` non-blank lines of a capture, escapes removed, oldest first. -/
def lastLines (content : String) (n : Nat) : List String :=
  ((content.textLines.reverse.map String.stripEscapes).filter
    (fun l => !l.isBlankText)).take n |>.reverse

/-- The lines joined by line feeds. -/
def joined (ls : List String) : String := "\n".intercalate ls

/-- The last line is a bare prompt symbol, possibly followed by typed input. -/
def endsInPrompt (ls : List String) (symbols : List String) : Bool :=
  match ls.getLast? with
  | none => false
  | some last =>
    let clean := last.trimBlank
    symbols.any fun sym =>
      clean == sym || clean.endsWith (" " ++ sym) ||
        (clean.startsWith (sym ++ " ") && clean.utf8ByteSize < 100)

/-- The lines show a busy agent or a busy command. -/
def isBusy (tool : Tool) (ls : List String) : Bool :=
  let lower := (joined ls).foldCase
  busyMarkers.any (lower.holds ·) ||
    (tool != .shell && (ls.drop (ls.length - 3)).any fun l => l.toList.any (spinnerFrames.contains ·))

/-- Tools other than the shell have a start-up banner to look for. -/
def hasReadinessHeuristic (tool : Tool) : Bool := tool != .shell

/-- The pane waits for input. -/
def hasPrompt (tool : Tool) (content : String) : Bool :=
  let ls := lastLines content 15
  if ls.isEmpty || isBusy tool ls then false
  else
    let recent := joined ls
    if confirmPatterns.any (recent.holds ·) then true
    else
      match tool with
      | .claude => permissionPrompts.any (recent.holds ·) || endsInPrompt ls [">"]
      | .gemini => recent.holds "gemini>" || endsInPrompt ls [">"]
      | .openCode => recent.holds "Ask anything" || endsInPrompt ls [">"]
      | .codex => recent.holds "codex>" || endsInPrompt ls [">", "›"]
      | .shell => endsInPrompt ls ["$", "#", "%", "❯", "➜", ">"]

/-- The agent has finished starting up: its banner shows, or it waits for input. -/
def isReady (tool : Tool) (content : String) : Bool :=
  let ls := lastLines content 25
  if ls.isEmpty then false
  else
    let recent := joined ls
    let lower := recent.foldCase
    let banner :=
      match tool with
      | .claude => lower.holds "? for shortcuts" || recent.holds "╭"
      | .gemini => lower.holds "type your message"
      | .openCode => lower.holds "ask anything"
      | .codex => lower.holds "context left" || lower.holds "send a message"
      | .shell => false
    banner || hasPrompt tool content

end AgentDeck.Prompt
