/-!
UTF-8 octets and their lossy reading.

Text is stored as UTF-8 octets. Reading octets back replaces each ill-formed stretch by one
replacement character `U+FFFD`: a stretch is the longest start of a well-formed sequence
that the octets begin with, or one octet where none begins, as RFC 3629 and the Unicode
"maximal subpart" practice lay down.

A text can be cut only between characters: `cutAt` tells whether an octet offset falls on
such a boundary or inside a character, and `takeOctets` keeps the longest start of a text
within a number of octets.
-/

namespace AgentDeck.Text

/-- The replacement character. -/
def replacementChar : Char := Char.ofNat 0xFFFD

/-- UTF-8 octets of a text. -/
def utf8 (s : String) : ByteArray := s.toUTF8

/-- Number of UTF-8 octets of a text. -/
def utf8Size (s : String) : Nat := s.utf8ByteSize

/-- An octet that continues a sequence within `lo ..= hi`. -/
def within (lo hi : UInt8) (b : UInt8) : Bool := lo ≤ b && b ≤ hi

/-- Range the second octet of a sequence must fall in, given the first. -/
def secondRange (b : UInt8) : UInt8 × UInt8 :=
  if b = 0xE0 then (0xA0, 0xBF)
  else if b = 0xED then (0x80, 0x9F)
  else if b = 0xF0 then (0x90, 0xBF)
  else if b = 0xF4 then (0x80, 0x8F)
  else (0x80, 0xBF)

/-- Number of octets of a sequence that starts with `b`, or 0 when `b` starts none. -/
def seqLength (b : UInt8) : Nat :=
  if b < 0x80 then 1
  else if 0xC2 ≤ b && b ≤ 0xDF then 2
  else if 0xE0 ≤ b && b ≤ 0xEF then 3
  else if 0xF0 ≤ b && b ≤ 0xF4 then 4
  else 0

/-- The value a well-formed sequence encodes. -/
def seqValue (bs : List UInt8) : Nat :=
  match bs with
  | [a] => a.toNat
  | [a, b] => (a.toNat % 0x20) * 0x40 + b.toNat % 0x40
  | [a, b, c] => ((a.toNat % 0x10) * 0x40 + b.toNat % 0x40) * 0x40 + c.toNat % 0x40
  | [a, b, c, d] =>
    (((a.toNat % 0x08) * 0x40 + b.toNat % 0x40) * 0x40 + c.toNat % 0x40) * 0x40 + d.toNat % 0x40
  | _ => 0xFFFD

/-- How many octets after the first one continue the sequence properly, out of `need`. -/
def goodTail (first : UInt8) (need : Nat) (rest : List UInt8) : Nat :=
  match need, rest with
  | 0, _ => 0
  | _, [] => 0
  | n + 1, b :: bs =>
    let (lo, hi) := secondRange first
    if within lo hi b then 1 + tailRun n bs else 0
where
  /-- Plain continuation octets, up to `n`. -/
  tailRun : Nat → List UInt8 → Nat
    | 0, _ => 0
    | _, [] => 0
    | n + 1, b :: bs => if within 0x80 0xBF b then 1 + tailRun n bs else 0

/-- One step of reading: the character and the number of octets it takes (at least one). -/
def readOne (b : UInt8) (rest : List UInt8) : Char × Nat :=
  let len := seqLength b
  if len = 0 then (replacementChar, 1)
  else if len = 1 then (Char.ofNat b.toNat, 1)
  else
    let good := goodTail b (len - 1) rest
    if good = len - 1 then (Char.ofNat (seqValue (b :: rest.take good)), len)
    else (replacementChar, good + 1)

theorem readOne_pos (b : UInt8) (rest : List UInt8) : 0 < (readOne b rest).2 := by
  simp only [readOne]
  split
  · simp
  · split
    · simp
    · split
      · simp only; omega
      · simp

/-- Octets read as text, each ill-formed stretch becoming one replacement character. -/
def decodeLossy (bs : List UInt8) : List Char :=
  match bs with
  | [] => []
  | b :: rest =>
    let step := readOne b rest
    have := readOne_pos b rest
    step.1 :: decodeLossy ((b :: rest).drop step.2)
termination_by bs.length
decreasing_by simp; omega

/-- Octets read as a string, lossily. -/
def stringOfBytesLossy (bs : ByteArray) : String := String.ofList (decodeLossy bs.toList)

/-- Where an octet offset falls in a text: on a character boundary, after the characters
before it, or inside a character, which starts at the given offset. -/
inductive OctetCut where
  | boundary (before : List Char)
  | inside (start : Nat) (c : Char)
  deriving Repr

/-- Where octet offset `n` falls in `cs`; past the end it falls on the end. -/
def cutAt : List Char → Nat → OctetCut
  | _, 0 => .boundary []
  | [], _ => .boundary []
  | c :: cs, n =>
    if n < c.utf8Size then .inside 0 c
    else
      match cutAt cs (n - c.utf8Size) with
      | .boundary before => .boundary (c :: before)
      | .inside start d => .inside (start + c.utf8Size) d

/-- The longest start of `cs` that takes at most `n` octets. -/
def takeOctets : List Char → Nat → List Char
  | [], _ => []
  | c :: cs, n => if c.utf8Size ≤ n then c :: takeOctets cs (n - c.utf8Size) else []

end AgentDeck.Text
