/-!
Blank and control characters, and trimming.

Blank is the Unicode `White_Space` property: the ASCII tab, line feed, vertical tab, form
feed, carriage return and space, and the wider spaces and separators of Unicode. Trimming
takes blanks off one or both ends of a text. The control characters are those of C0, delete
and those of C1.
-/

namespace AgentDeck.Text

/-- A control character: C0, delete, or C1. -/
def isControl (c : Char) : Bool :=
  c.toNat < 0x20 || (0x7f ≤ c.toNat && c.toNat < 0xa0)

/-- The Unicode `White_Space` characters. -/
def isBlank (c : Char) : Bool :=
  let n := c.toNat
  (0x09 ≤ n && n ≤ 0x0D) || n == 0x20 || n == 0x85 || n == 0xA0 || n == 0x1680 ||
    (0x2000 ≤ n && n ≤ 0x200A) || n == 0x2028 || n == 0x2029 || n == 0x202F ||
    n == 0x205F || n == 0x3000

/-- Every character that core Lean counts as whitespace is blank. -/
theorem isBlank_of_isWhitespace (c : Char) (h : c.isWhitespace = true) : isBlank c = true := by
  simp only [Char.isWhitespace, Bool.or_eq_true, decide_eq_true_eq] at h
  simp only [isBlank, Bool.or_eq_true, Bool.and_eq_true, decide_eq_true_eq, beq_iff_eq]
  rcases h with ((h | h) | h) | h <;> subst h <;> decide

/-- Blanks taken off the front. -/
def trimLeadChars (s : List Char) : List Char := s.dropWhile isBlank

/-- Blanks taken off the back. -/
def trimTailChars (s : List Char) : List Char := (s.reverse.dropWhile isBlank).reverse

/-- Blanks taken off both ends. -/
def trimChars (s : List Char) : List Char := trimTailChars (trimLeadChars s)

/-- The text holds blanks only (the empty text included). -/
def allBlank (s : List Char) : Bool := s.all isBlank

end AgentDeck.Text

namespace String

/-- The string without blanks at either end. -/
def trimBlank (s : String) : String := String.ofList (AgentDeck.Text.trimChars s.toList)

/-- The string without blanks at its end. -/
def trimBlankEnd (s : String) : String := String.ofList (AgentDeck.Text.trimTailChars s.toList)

/-- The string without blanks at its start. -/
def trimBlankStart (s : String) : String := String.ofList (AgentDeck.Text.trimLeadChars s.toList)

/-- The string is empty or holds blanks only. -/
def isBlankText (s : String) : Bool := AgentDeck.Text.allBlank s.toList

end String
