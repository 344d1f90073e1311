/-!
Letter case, as far as matching ASCII patterns needs it.

`fold` lower-cases a text for comparison with patterns written in lower-case ASCII. It maps
ASCII capitals to small letters, and the two characters outside ASCII whose lower case
contains an ASCII letter: the Kelvin sign becomes `k`, and the capital I with dot above
becomes `i` followed by a combining dot above. Every other character keeps its value: its
lower case holds no ASCII character, so it cannot take part in an ASCII match either way.
-/

namespace AgentDeck.Text

/-- One character lower-cased for ASCII pattern matching. -/
def foldChar (c : Char) : List Char :=
  if 'A' ≤ c ∧ c ≤ 'Z' then [Char.ofNat (c.toNat + 32)]
  else if c.toNat = 0x212A then ['k']
  else if c.toNat = 0x130 then ['i', Char.ofNat 0x307]
  else [c]

/-- The text lower-cased for ASCII pattern matching. -/
def fold (s : List Char) : List Char := s.flatMap foldChar

/-- ASCII small letters made capitals; all else unchanged. -/
def upperAscii (s : List Char) : List Char :=
  s.map fun c => if 'a' ≤ c ∧ c ≤ 'z' then Char.ofNat (c.toNat - 32) else c

end AgentDeck.Text

namespace String

/-- The string lower-cased for matching ASCII patterns. -/
def foldCase (s : String) : String := String.ofList (AgentDeck.Text.fold s.toList)

end String
