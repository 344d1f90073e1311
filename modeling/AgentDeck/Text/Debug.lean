import AgentDeck.Text.PrintTable

/-!
The debug form of a text: the text between double quotes, with quotes, backslashes and
characters that do not show escaped, so that it reads back unambiguously.

Tab, carriage return, line feed and the null character have short escapes. A character that
does not show on its own is written by its code point in hexadecimal, as `\u{1b}`: a control
or format character, a separator other than the space, a private use, unassigned or
default-ignorable code point, and a character that extends the cluster before it. A single
character has a debug form of its own, between single quotes.
-/

namespace AgentDeck.Text

/-- A character that the debug form writes by its code point: one that extends the cluster
before it, or one that does not show by itself. -/
def isHidden (c : Char) : Bool :=
  inRanges PrintTable.graphemeExtend c.toNat || inRanges PrintTable.unprintable c.toNat

/-- How one character is written in a debug form quoted by `quote`. -/
def debugEscape (quote c : Char) : List Char :=
  if c = quote then ['\\', c]
  else if c = '\\' then ['\\', '\\']
  else if c = '\n' then ['\\', 'n']
  else if c = '\r' then ['\\', 'r']
  else if c = '\t' then ['\\', 't']
  else if c = '\x00' then ['\\', '0']
  else if isHidden c then "\\u\x7b".toList ++ Nat.toDigits 16 c.toNat ++ ['\x7d']
  else [c]

/-- How one character of a text is written in the text's debug form. -/
def debugChar (c : Char) : List Char := debugEscape '"' c

/-- The debug form of a text. -/
def debugQuoted (s : String) : String :=
  String.ofList ('"' :: s.toList.flatMap debugChar ++ ['"'])

/-- The debug form of a single character. -/
def debugQuotedChar (c : Char) : String :=
  String.ofList ('\'' :: debugEscape '\'' c ++ ['\''])

/-- The debug form of an optional text: `None`, or `Some` around the text's form. -/
def debugOption (s : Option String) : String :=
  match s with
  | some t => "Some(" ++ debugQuoted t ++ ")"
  | none => "None"

end AgentDeck.Text
