import AgentDeck.Text.Blank
import AgentDeck.Text.WidthTable
import AgentDeck.Text.EmojiTable
import AgentDeck.Text.JoiningTable

/-!
Display width of text in terminal columns.

A character alone takes the columns its table entry gives: none for marks, joiners and
other invisible characters, two for East Asian wide and fullwidth characters and emoji
pictures, one for the rest, three for the Khmer sign beyyal, and none for a control
character.

A text is measured from its end backwards, each character in the light of what follows it,
because some sequences take other columns than their characters one by one:

* carriage return and line feed take one column together, and every other control
  character takes one;
* variation selector 16 after a character with a picture form makes a picture of two
  columns, and selector 15 after a picture by default makes text of one column;
* the curly quotation marks take one column before variation selector 1 and two, their
  fullwidth form, before variation selector 2, also when the selector stands over a script
  letter;
* a skin tone modifier after its base, pictures tied by zero width joiners, a pair of
  regional indicators and a flag with its tags are one picture of two columns;
* lam and alef with transparent marks between them, Hebrew alef, joiner and lamed,
  Buginese ya, vowel sign i, joiner and nya, Tifinagh consonants tied by the consonant
  joiner or a joiner, a Lisu tone letter pair, Old Turkic orkhon ash, joiner and orkhon i,
  and the Kirat Rai vowel signs that make up another vowel sign take one column; a Khmer
  coeng sign and the consonant it puts below the line take none.

Zero width joiners and the default-ignorable marks inside a script ligature do not break it,
except in the Kirat Rai vowel signs, which join only when written next to each other. Those
signs are read as the vowel signs aa and e they decompose into, and a run of them takes as
many columns as the run has signs once recomposed from the left: aa with e, and then with a
second e, makes one sign, and so do two signs e.
The measure is a right fold of `step`; `fit` cuts a text to a number of columns and marks
the cut with an ellipsis, measuring the characters it keeps one by one.
-/

namespace AgentDeck.Text

open WidthTable EmojiTable JoiningTable

/-- Columns of a character from the tables, for a character that is not a control character. -/
def tableColumns (n : Nat) : Nat :=
  if n = 0x17D8 then 3
  else if n = 0x17A4 then 2
  else if inRanges zeroWidth n then 0
  else if inRanges doubleWidth n then 2
  else 1

/-- Columns a character takes on its own; a control character takes none. -/
def charColumns (c : Char) : Nat := if isControl c then 0 else tableColumns c.toNat

/-- Letters that a ligature ties to the letters before them. -/
inductive Ligature where
  /-- Hebrew lamed; `joined` when a zero width joiner stands before it. -/
  | lamed (joined : Bool)
  /-- Buginese nya; `joined` when a zero width joiner stands before it. -/
  | nya (joined : Bool)
  /-- Buginese vowel sign i, joiner and nya. -/
  | nyaWithI
  /-- A Tifinagh consonant; `joined` when a zero width joiner stands before it. -/
  | consonant (joined : Bool)
  /-- The Tifinagh consonant joiner and a consonant. -/
  | joinerConsonant
  /-- A Lisu tone letter that completes a tone pair. -/
  | lisuTone
  /-- Old Turkic orkhon i; `joined` when a zero width joiner stands before it. -/
  | orkhonI (joined : Bool)
  /-- A Khmer consonant that a coeng sign puts below the line. -/
  | khmerLetter
  /-- Kirat Rai vowel sign e. -/
  | kiratE
  /-- Kirat Rai vowel sign ai, or two signs e. -/
  | kiratAi
  deriving DecidableEq, Repr

/-- The ligature lets zero width joiners, default-ignorable marks and variation selectors
through. -/
def Ligature.transparent : Ligature → Bool
  | .kiratE | .kiratAi => false
  | _ => true

/-- The ligature with a zero width joiner before it. -/
def Ligature.join : Ligature → Ligature
  | .lamed _ => .lamed true
  | .nya _ => .nya true
  | .consonant _ => .consonant true
  | .orkhonI _ => .orkhonI true
  | l => l

/-- Variation selectors that stand before a script letter without breaking its ligature,
each a request to the character before them: 16 for a picture, 15 for text, and 1 or 2 for
the halfwidth or fullwidth form of a curly quote (`quote` is `some false` or `some true`). -/
structure Selectors where
  emoji : Bool
  text : Bool
  quote : Option Bool
  deriving DecidableEq, Repr

/-- No variation selector. -/
def Selectors.empty : Selectors := ⟨false, false, none⟩

/-- How many regional indicators stand before a joined picture. -/
inductive Indicators where
  | one
  | even
  | odd
  deriving DecidableEq, Repr

/-- What follows a character, as far as its columns depend on it. -/
inductive Follow where
  /-- Nothing that changes the character's columns. -/
  | plain
  | lineFeed
  /-- A skin tone modifier. -/
  | modifier
  /-- A single regional indicator. -/
  | indicator
  /-- Two or more regional indicators. -/
  | indicators
  /-- An emoji picture. -/
  | picture
  /-- A zero width joiner and a picture; `keycap` when a keycap mark comes first,
  `selected` when a variation selector 16 comes before that. -/
  | joined (keycap selected : Bool)
  /-- Regional indicators, a joiner and a picture. -/
  | joinedIndicators (count : Indicators)
  /-- The tag characters of a flag read so far, its cancel tag, a joiner and a picture. -/
  | tags (spec : List Nat)
  /-- A letter of the alef group and the variation selectors before it. -/
  | alef (sel : Selectors)
  /-- A letter that a ligature ties to letters before it, and the variation selectors
  before it. -/
  | ligature (l : Ligature) (sel : Selectors)
  /-- Variation selector 16. -/
  | emojiSelector
  /-- Variation selector 15. -/
  | textSelector
  /-- Variation selector 1, or with `wide` variation selector 2. -/
  | quoteSelector (wide : Bool)
  deriving DecidableEq, Repr

/-- A variation selector 16 before what follows: it stands over a script letter and over a
joined picture, and else replaces what follows. -/
def Follow.selectEmoji : Follow → Follow
  | .alef s => .alef { s with emoji := true }
  | .ligature l s => if l.transparent then .ligature l { s with emoji := true } else .emojiSelector
  | .joined k false => .joined k true
  | _ => .emojiSelector

/-- A variation selector 15 before what follows: it stands over a script letter, and else
replaces what follows. -/
def Follow.selectText : Follow → Follow
  | .alef s => .alef { s with text := true }
  | .ligature l s => if l.transparent then .ligature l { s with text := true } else .textSelector
  | _ => .textSelector

/-- A variation selector 1, or 2 when `wide`, before what follows: it stands over a script
letter, and else replaces what follows. -/
def Follow.selectQuote (wide : Bool) : Follow → Follow
  | .alef s => .alef { s with quote := some wide }
  | .ligature l s =>
    if l.transparent then .ligature l { s with quote := some wide } else .quoteSelector wide
  | _ => .quoteSelector wide

/-- A variation selector 16 asks for a picture. -/
def Follow.wantsEmoji : Follow → Bool
  | .emojiSelector => true
  | .alef s => s.emoji
  | .ligature _ s => s.emoji
  | .joined _ s => s
  | _ => false

/-- What follows with the request for a picture dropped. -/
def Follow.dropEmoji : Follow → Follow
  | .alef s => .alef { s with emoji := false }
  | .ligature l s => .ligature l { s with emoji := false }
  | _ => .plain

/-- A variation selector 15 asks for text. -/
def Follow.wantsText : Follow → Bool
  | .textSelector => true
  | .alef s => s.text
  | .ligature _ s => s.text
  | _ => false

/-- What follows with the request for text dropped. -/
def Follow.dropText : Follow → Follow
  | .textSelector => .plain
  | .alef s => .alef { s with text := false }
  | .ligature l s => .ligature l { s with text := false }
  | f => f

/-- The form of a curly quote that a variation selector 1 or 2 asks for: `some true` for
the fullwidth one. -/
def Follow.wantsQuote : Follow → Option Bool
  | .quoteSelector w => some w
  | .alef s => s.quote
  | .ligature _ s => s.quote
  | _ => none

/-- What follows with the request for a form of a quote dropped. -/
def Follow.dropQuote : Follow → Follow
  | .quoteSelector _ => .plain
  | .alef s => .alef { s with quote := none }
  | .ligature l s => .ligature l { s with quote := none }
  | f => f

/-- A picture joined after a variation selector 16, which adds no columns of its own. -/
def Follow.joinedSelected : Follow → Bool
  | .joined _ s => s
  | _ => false

/-- The Khmer consonants that have a subscript form. -/
def isKhmerSubscript (n : Nat) : Bool :=
  (0x1780 ≤ n && n ≤ 0x1782) || (0x1784 ≤ n && n ≤ 0x1787) || (0x1789 ≤ n && n ≤ 0x178C) ||
    (0x178E ≤ n && n ≤ 0x1793) || (0x1795 ≤ n && n ≤ 0x1798) || (0x179B ≤ n && n ≤ 0x179D) ||
    n == 0x17A0 || n == 0x17A2 || n == 0x17A7 || n == 0x17AB || n == 0x17AC || n == 0x17AF

/-- The Tifinagh consonants. -/
def isTifinaghConsonant (n : Nat) : Bool := (0x2D31 ≤ n && n ≤ 0x2D65) || n == 0x2D6F

/-- The curly quotation marks, which have a halfwidth and a fullwidth form. -/
def isCurlyQuote (n : Nat) : Bool := n == 0x2018 || n == 0x2019 || n == 0x201C || n == 0x201D

/-- The regional indicator symbols. -/
def isIndicator (n : Nat) : Bool := 0x1F1E6 ≤ n && n ≤ 0x1F1FF

/-- The skin tone modifiers. -/
def isModifier (n : Nat) : Bool := 0x1F3FB ≤ n && n ≤ 0x1F3FF

/-- The default-ignorable marks and the zero width joiner, which a script ligature lets
through. -/
def isLigatureTransparent (n : Nat) : Bool :=
  n == 0x34F || n == 0x17B4 || n == 0x17B5 || (0x180B ≤ n && n ≤ 0x180D) || n == 0x180F ||
    n == 0x200D || (0xFE00 ≤ n && n ≤ 0xFE0F) || (0xE0100 ≤ n && n ≤ 0xE01EF)

/-- What a character is to the character before it, when nothing after it matters. -/
def Follow.ofChar (n : Nat) : Follow :=
  if n = 0x05DC then .ligature (.lamed false) .empty
  else if inRanges alefGroup n then .alef .empty
  else if isKhmerSubscript n then .ligature .khmerLetter .empty
  else if n = 0x1A10 then .ligature (.nya false) .empty
  else if isTifinaghConsonant n then .ligature (.consonant false) .empty
  else if n = 0xA4FC ∨ n = 0xA4FD then .ligature .lisuTone .empty
  else if n = 0xFE0F then .emojiSelector
  else if n = 0xFE0E then .textSelector
  else if n = 0xFE00 then .quoteSelector false
  else if n = 0xFE01 then .quoteSelector true
  else if n = 0x10C03 then .ligature (.orkhonI false) .empty
  else if n = 0x16D67 then .ligature .kiratE .empty
  else if n = 0x16D68 then .ligature .kiratAi .empty
  else if isIndicator n then .indicator
  else if isModifier n then .modifier
  else if inRanges emojiPresentation n then .picture
  else .plain

/-- A character by its table entry alone. -/
def lookup (n : Nat) : Int × Follow := (tableColumns n, Follow.ofChar n)

/-- A character before a letter of a script ligature, when it continues the ligature. -/
def ligatureStep (n : Nat) (l : Ligature) : Option (Int × Follow) :=
  let tie (l : Ligature) : Follow := .ligature l .empty
  if l.transparent ∧ n = 0x200D then some (0, tie l.join)
  else if l.transparent ∧ isLigatureTransparent n then some (0, tie l)
  else match l with
    | .lamed true => if n = 0x05D0 then some (0, .plain) else none
    | .khmerLetter => if n = 0x17D2 then some (-1, .plain) else none
    | .nya true => if n = 0x1A17 then some (0, tie .nyaWithI) else none
    | .nyaWithI => if n = 0x1A15 then some (0, .plain) else none
    | .consonant j =>
      if n = 0x2D7F then some (1, tie .joinerConsonant)
      else if j ∧ isTifinaghConsonant n then some (0, .plain)
      else none
    | .joinerConsonant => if isTifinaghConsonant n then some (-1, .plain) else none
    | .lisuTone => if 0xA4F8 ≤ n ∧ n ≤ 0xA4FB then some (0, .plain) else none
    | .orkhonI true => if n = 0x10C32 then some (0, .plain) else none
    | .kiratE =>
      if n = 0x16D63 ∨ n = 0x16D69 then some (0, .plain)
      else if n = 0x16D67 then some (0, tie .kiratAi)
      -- ai before e is e, e, e: its first e still takes a sign before it
      else if n = 0x16D68 then some (1, tie .kiratE)
      else none
    | .kiratAi => if n = 0x16D63 then some (0, .plain) else none
    | _ => none

/-- The tag characters of a flag: digits and small letters. -/
def isTagSpec (n : Nat) : Bool := (0xE0030 ≤ n && n ≤ 0xE0039) || (0xE0061 ≤ n && n ≤ 0xE007A)

/-- A tag letter. -/
def isTagLetter (n : Nat) : Bool := 0xE0061 ≤ n && n ≤ 0xE007A

/-- A tag digit. -/
def isTagDigit (n : Nat) : Bool := 0xE0030 ≤ n && n ≤ 0xE0039

/-- The tags that make a flag: three to six letters, a region and its subdivision, or the
three digits of a region. -/
def validTags (spec : List Nat) : Bool :=
  (spec.all isTagLetter && 3 ≤ spec.length && spec.length ≤ 6) ||
    (spec.all isTagDigit && spec.length == 3)

/-- A character before an emoji sequence, when it continues the sequence. -/
def pictureStep (n : Nat) : Follow → Option (Int × Follow)
  | .modifier =>
    if inRanges modifierBases n then some (0, .picture)
    else if n = 0x200D then some (0, .joined false false)
    else none
  | .indicator => if isIndicator n then some (1, .indicators) else none
  | .indicators =>
    if isIndicator n then some (1, .indicators)
    else if n = 0x200D then some (0, .joined false false)
    else none
  | .picture => if n = 0x200D then some (0, .joined false false) else none
  | .joinedIndicators .one => if isIndicator n then some (-1, .joinedIndicators .even) else none
  | .joinedIndicators .even =>
    if isIndicator n then some (3, .joinedIndicators .odd)
    else if n = 0x200D then some (0, .joined false false)
    else none
  | .joinedIndicators .odd =>
    if isIndicator n then some (-1, .joinedIndicators .even)
    else if n = 0x200D then some (0, .joined false false)
    else none
  | .joined false false =>
    if n = 0x20E3 then some (0, .joined true false)
    else if isIndicator n then some (1, .joinedIndicators .one)
    else if isModifier n then some (0, .modifier)
    else if n = 0xE007F then some (0, .tags [])
    else if Follow.ofChar n = .picture then some (0, .picture)
    else none
  | .tags spec =>
    if isTagSpec n ∧ spec.length < 7 then some (0, .tags (n :: spec))
    else if n = 0x1F3F4 ∧ validTags spec then some (0, .picture)
    else none
  | _ => none

/-- Columns a character adds inside a text, given what follows it, and what it is to the
character before it. A Khmer coeng sign and the first consonant of a Tifinagh pair tied by
the consonant joiner take back a column of the letter after them. -/
def step (c : Char) (next : Follow) : Int × Follow :=
  let n := c.toNat
  if next.wantsEmoji ∧ inRanges emojiStyleBases n then
    (if next.joinedSelected then 0 else 2, .picture)
  else
    let next := if next.wantsEmoji then next.dropEmoji else next
    if n ≤ 0xA0 then
      if c = '\n' then (1, .lineFeed)
      else if c = '\r' ∧ next = .lineFeed then (0, .plain)
      else (1, .plain)
    else if n = 0xFE0F then (0, next.selectEmoji)
    else if n = 0xFE0E then (0, next.selectText)
    else if n = 0xFE00 ∨ n = 0xFE01 then (0, next.selectQuote (n == 0xFE01))
    else if next.wantsText ∧ inRanges textStyleBases n then (1, .plain)
    else
      let next := if next.wantsText then next.dropText else next
      if next.wantsQuote.isSome ∧ isCurlyQuote n then
        (if next.wantsQuote = some true then 2 else 1, .plain)
      else
        let tied := match next.dropQuote with
          | .ligature l _ => ligatureStep n l
          | .alef _ =>
            if inRanges lamGroup n then some (0, .plain)
            else if inRanges joinTransparent n then some (0, .alef .empty)
            else none
          | f => pictureStep n f
        tied.getD (lookup n)

/-- Columns of a text measured from its end, and what its first character is to a
character before it. -/
def measure : List Char → Int × Follow
  | [] => (0, .plain)
  | c :: cs =>
    let rest := measure cs
    let s := step c rest.2
    (rest.1 + s.1, s.2)

@[simp] theorem measure_nil : measure [] = (0, .plain) := rfl

@[simp] theorem measure_cons (c : Char) (cs : List Char) :
    measure (c :: cs) = ((measure cs).1 + (step c (measure cs).2).1, (step c (measure cs).2).2) :=
  rfl

/-- Columns a text takes. -/
def columns (s : List Char) : Nat := (measure s).1.toNat

/-- The longest start of `s` whose characters, measured one by one, fit in `room` columns. -/
def takeColumns (room : Nat) : List Char → List Char
  | [] => []
  | c :: cs => if charColumns c ≤ room then c :: takeColumns (room - charColumns c) cs else []

/-- The ellipsis that marks a cut. -/
def ellipsis : Char := Char.ofNat 0x2026

/-- `s` cut to at most `max` columns, the cut marked by an ellipsis. -/
def fit (max : Nat) (s : List Char) : List Char :=
  if columns s ≤ max then s
  else if max = 0 then []
  else takeColumns (max - 1) s ++ [ellipsis]

/-- A text that fits is kept whole. -/
theorem fit_of_columns_le {max : Nat} {s : List Char} (h : columns s ≤ max) : fit max s = s := by
  simp [fit, h]

/-- `s` padded with spaces on the right to `n` characters. -/
def padRight (n : Nat) (s : List Char) : List Char := s ++ List.replicate (n - s.length) ' '

end AgentDeck.Text

namespace String

/-- Columns the string takes on a terminal. -/
def columns (s : String) : Nat := AgentDeck.Text.columns s.toList

/-- The string cut to `max` columns, the cut marked by an ellipsis. -/
def fitColumns (s : String) (max : Nat) : String := String.ofList (AgentDeck.Text.fit max s.toList)

/-- The string padded with spaces on the right to `n` characters. -/
def padRight (s : String) (n : Nat) : String := String.ofList (AgentDeck.Text.padRight n s.toList)

end String
