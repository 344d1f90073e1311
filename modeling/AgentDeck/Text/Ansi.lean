/-!
Terminal escape sequences.

Two kinds of sequence are taken out of captured pane text: a control sequence, `ESC [`
followed by digits, `;` and `?` and closed by one ASCII letter, and an operating system
command, `ESC ]` followed by anything up to the first `BEL`. The text is scanned from the
left, and a sequence that is not closed stays as it is.
-/

namespace AgentDeck.Text

/-- Characters allowed between `ESC [` and the closing letter. -/
def isParamChar (c : Char) : Bool := c.isDigit || c == ';' || c == '?'

/-- The rest after a control sequence's parameters and closing letter, if it is closed. -/
def closeControl : List Char → Option (List Char)
  | [] => none
  | c :: cs =>
    if isParamChar c then closeControl cs
    else if c.isAlpha then some cs
    else none

/-- The rest after the `BEL` that closes an operating system command, if there is one. -/
def closeCommand : List Char → Option (List Char)
  | [] => none
  | c :: cs => if c = '\x07' then some cs else closeCommand cs

theorem closeControl_length {s r : List Char} (h : closeControl s = some r) :
    r.length < s.length := by
  induction s with
  | nil => simp [closeControl] at h
  | cons c cs ih =>
    simp only [closeControl] at h
    split at h
    · have := ih h; simp; omega
    · split at h
      · cases h; simp
      · cases h

theorem closeCommand_length {s r : List Char} (h : closeCommand s = some r) :
    r.length < s.length := by
  induction s with
  | nil => simp [closeCommand] at h
  | cons c cs ih =>
    simp only [closeCommand] at h
    split at h
    · cases h; simp
    · have := ih h; simp; omega

/-- `s` with every closed escape sequence removed. -/
def stripEscapes (s : List Char) : List Char :=
  match s with
  | [] => []
  | '\x1b' :: '[' :: rest =>
    match h : closeControl rest with
    | some after =>
      have := closeControl_length h
      stripEscapes after
    | none => '\x1b' :: stripEscapes ('[' :: rest)
  | '\x1b' :: ']' :: rest =>
    match h : closeCommand rest with
    | some after =>
      have := closeCommand_length h
      stripEscapes after
    | none => '\x1b' :: stripEscapes (']' :: rest)
  | c :: rest => c :: stripEscapes rest
termination_by s.length

end AgentDeck.Text

namespace String

/-- The string with closed terminal escape sequences removed. -/
def stripEscapes (s : String) : String := String.ofList (AgentDeck.Text.stripEscapes s.toList)

end String
