/-!
Lines of a text.

A line ends at a line feed; a carriage return right before that line feed belongs to the
line ending, and a lone one stays in the line. The text after the last line feed is a line
only when it is not empty, so a final line feed does not open an empty last line.
-/

namespace AgentDeck.Text

/-- A line without its carriage return, when the line feed followed one. -/
def dropReturn (line : List Char) : List Char :=
  match line.reverse with
  | '\r' :: rest => rest.reverse
  | _ => line

/-- Lines of `s`, line endings removed. -/
def lines (s : List Char) : List (List Char) :=
  match splitPieces s with
  | [] => []
  | pieces =>
    let body := pieces.dropLast.map dropReturn
    match pieces.getLast? with
    | some last => if last.isEmpty then body else body ++ [last]
    | none => body
where
  /-- The pieces between line feeds. -/
  splitPieces : List Char → List (List Char)
    | [] => [[]]
    | c :: cs =>
      if c = '\n' then [] :: splitPieces cs
      else
        match splitPieces cs with
        | [] => [[c]]
        | p :: ps => (c :: p) :: ps

/-- The empty text has no lines. -/
@[simp] theorem lines_nil : lines [] = [] := by decide

end AgentDeck.Text

namespace String

/-- Lines of the string, line endings removed. -/
def textLines (s : String) : List String := (AgentDeck.Text.lines s.toList).map String.ofList

end String
