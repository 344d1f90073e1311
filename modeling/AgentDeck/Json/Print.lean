import AgentDeck.Json.Value
import AgentDeck.Binary64.Shortest

/-!
Writing JSON text.

Strings are written between double quotes; the quote and the backslash are escaped with a
backslash, the control characters below U+0020 as `\b`, `\t`, `\n`, `\f`, `\r` or
`\u00XX` with lower-case hex digits, and every other character as it is. `compact` writes
no blanks at all. `pretty` puts every array item and object member on a line of its own,
indented by two spaces a level, with `": "` after a key; an empty array or object is
written `[]` or `{}`. A double is written with the fewest digits that read back as it
(`numberStyle`); one that is not finite has no JSON form and is written `null`.
-/

namespace AgentDeck

/-- Doubles are written positionally when their leading digit stands from `10^-5` to
`10^15`, an integer with `.0` after it, and otherwise as digits with a signed exponent
(`1e+16`, `1e-7`); of two equally near shortest forms the one with an even last digit is
written. -/
def numberStyle : Binary64.Style :=
  { plainFrom := -5, plainBelow := 16, pointZero := true, expPlus := true, tie := .toEven }

/-- A number's text. -/
def Number.text : Number → String
  | .nat n => toString n
  | .neg n => "-" ++ toString n
  | .float x => if x.isInfinite || x == .nan then "null" else Binary64.render numberStyle x

end AgentDeck

namespace AgentDeck.Json

/-- Lower-case hex digit of a value below 16. -/
def hexDigit (n : Nat) : Char :=
  if n < 10 then Char.ofNat (48 + n) else Char.ofNat (87 + n)

/-- One character of a string's body. -/
def escapeChar (c : Char) : List Char :=
  if c = '"' then ['\\', '"']
  else if c = '\\' then ['\\', '\\']
  else if c.toNat = 8 then ['\\', 'b']
  else if c = '\t' then ['\\', 't']
  else if c = '\n' then ['\\', 'n']
  else if c.toNat = 12 then ['\\', 'f']
  else if c = '\r' then ['\\', 'r']
  else if c.toNat < 0x20 then ['\\', 'u', '0', '0', hexDigit (c.toNat / 16), hexDigit (c.toNat % 16)]
  else [c]

/-- A string written as a JSON string. -/
def quote (s : String) : String :=
  String.ofList ('"' :: (s.toList.flatMap escapeChar ++ ['"']))

/-- The value in compact form. -/
def compact : Json → String
  | .null => "null"
  | .bool b => if b then "true" else "false"
  | .num n => n.text
  | .str s => quote s
  | .arr xs => "[" ++ ",".intercalate (xs.attach.map fun ⟨x, _⟩ => compact x) ++ "]"
  | .obj ms =>
    "\x7b" ++ ",".intercalate (ms.attach.map fun ⟨m, _⟩ => quote m.1 ++ ":" ++ compact m.2) ++ "\x7d"
termination_by j => sizeOf j
decreasing_by
  all_goals simp_wf
  · have := List.sizeOf_lt_of_mem ‹_›; omega
  · have h := List.sizeOf_lt_of_mem ‹_›
    have : sizeOf m.2 < sizeOf m := by cases m; simp only [Prod.mk.sizeOf_spec]; omega
    omega

/-- Blanks that indent `depth` levels. -/
def indent (depth : Nat) : String := String.ofList (List.replicate (2 * depth) ' ')

/-- The value in pretty form, its nested lines indented from `depth`. -/
def prettyAt (depth : Nat) : Json → String
  | .arr [] => "[]"
  | .obj [] => "\x7b\x7d"
  | .arr xs =>
    "[\n" ++ ",\n".intercalate (xs.attach.map fun ⟨x, _⟩ => indent (depth + 1) ++ prettyAt (depth + 1) x)
      ++ "\n" ++ indent depth ++ "]"
  | .obj ms =>
    "\x7b\n" ++ ",\n".intercalate (ms.attach.map fun ⟨m, _⟩ =>
        indent (depth + 1) ++ quote m.1 ++ ": " ++ prettyAt (depth + 1) m.2)
      ++ "\n" ++ indent depth ++ "\x7d"
  | j => compact j
termination_by j => sizeOf j
decreasing_by
  all_goals simp_wf
  · have := List.sizeOf_lt_of_mem ‹_›; omega
  · have h := List.sizeOf_lt_of_mem ‹_›
    have : sizeOf m.2 < sizeOf m := by cases m; simp only [Prod.mk.sizeOf_spec]; omega
    omega

/-- The value in pretty form. -/
def pretty (j : Json) : String := prettyAt 0 j

end AgentDeck.Json
