/-!
Searching text for a fixed pattern, on character lists.

`occurs pat s` tells whether `pat` stands somewhere in `s` as one contiguous run; the
replacement and cutting functions below are the few text edits the library needs, each
written as plain recursion on the characters so that its lemmas follow the data.
-/

namespace AgentDeck.Text

/-- `pat` stands in `s` as a contiguous run of characters. -/
def occurs (pat : List Char) : List Char → Bool
  | [] => pat.isEmpty
  | c :: cs => pat.isPrefixOf (c :: cs) || occurs pat cs

@[simp] theorem occurs_nil (pat : List Char) : occurs pat [] = pat.isEmpty := rfl

/-- The empty pattern stands in every text. -/
theorem occurs_empty (s : List Char) : occurs [] s = true := by
  cases s <;> simp [occurs, List.isPrefixOf]

/-- Every occurrence of `pat` replaced by `rep`, scanning left to right; an empty pattern
changes nothing. -/
def replaceAll (pat rep : List Char) (s : List Char) : List Char :=
  if pat.isEmpty then s else go s.length s
where
  go : Nat → List Char → List Char
    | 0, s => s
    | _, [] => []
    | n + 1, c :: cs =>
      if pat.isPrefixOf (c :: cs) then rep ++ go n ((c :: cs).drop pat.length)
      else c :: go n cs

/-- `s` with `pre` taken off its front, when `s` starts with it. -/
def dropLead (pre s : List Char) : Option (List Char) :=
  if pre.isPrefixOf s then some (s.drop pre.length) else none

/-- The pieces of `s` between the occurrences of the separator `sep`. -/
def splitOnChar (sep : Char) : List Char → List (List Char)
  | [] => [[]]
  | c :: cs =>
    if c = sep then [] :: splitOnChar sep cs
    else
      match splitOnChar sep cs with
      | [] => [[c]]
      | p :: ps => (c :: p) :: ps

/-- The text before and after the last `sep` in `s`, if it has one. -/
def splitLast (sep : Char) (s : List Char) : Option (List Char × List Char) :=
  match (splitOnChar sep s).reverse with
  | last :: before@(_ :: _) =>
    some ((List.intercalate [sep] before.reverse), last)
  | _ => none

end AgentDeck.Text

namespace String

/-- `pat` stands somewhere in the string. -/
def holds (s pat : String) : Bool := AgentDeck.Text.occurs pat.toList s.toList

/-- Every occurrence of `pat` replaced by `rep`. -/
def swapAll (s pat rep : String) : String :=
  String.ofList (AgentDeck.Text.replaceAll pat.toList rep.toList s.toList)

end String
