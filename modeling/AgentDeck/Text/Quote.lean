/-!
Quoting a word for a POSIX shell.

A word made only of ASCII letters, digits and the characters `/._-+:@` is left as it is;
any other word, the empty one included, is put in single quotes, and each single quote
inside it is written as a closing quote, an escaped quote and an opening quote.
-/

namespace AgentDeck.Text

/-- Characters a word may hold and still go unquoted. -/
def isPlainWordChar (c : Char) : Bool :=
  c.isAlphanum || "/._-+:@".toList.contains c

/-- A single quote written inside single quotes. -/
def quotedQuote : List Char := ['\'', '\\', '\'', '\'']

/-- The body of a single-quoted word. -/
def quoteBody : List Char → List Char
  | [] => []
  | c :: cs => (if c = '\'' then quotedQuote else [c]) ++ quoteBody cs

/-- The word as a shell reads it back. -/
def shellQuote (s : List Char) : List Char :=
  if !s.isEmpty && s.all isPlainWordChar then s
  else '\'' :: quoteBody s ++ ['\'']

end AgentDeck.Text

namespace String

/-- The string quoted for a POSIX shell. -/
def shellQuote (s : String) : String := String.ofList (AgentDeck.Text.shellQuote s.toList)

end String
