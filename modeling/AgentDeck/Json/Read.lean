import AgentDeck.Json.Numeral
import AgentDeck.Json.Print
import AgentDeck.Binary64.Shortest
import AgentDeck.Text.Debug

/-!
Reading JSON text against an expected shape.

A document is read in one pass from left to right, and the first fault met is the answer.
A fault is of one of three kinds: the text is not JSON (`malformed`), it ends too early
(`truncated`), or it is JSON of another shape than expected (`mismatch`): a missing field,
a value of the wrong type, a name outside an enumeration, a number out of range. Because
the pass stops at the first fault, a shape fault early in a document wins over a malformed
tail, and the other way round.

Every fault carries a message and the line and column, counted in octets, where the reader
stood; a column is `0` before the first octet of a line. A shape is one of the forms a
record of this library is stored in (`Shape`); reading returns the value with absent
fields filled in by their defaults and fields in declaration order, and keys of free-form
objects sorted.
-/

namespace AgentDeck.Json

/-- Kind of a reading fault. -/
inductive Category where
  /-- The text is not JSON. -/
  | malformed
  /-- The text ends inside a value. -/
  | truncated
  /-- Well-formed JSON of another shape than expected. -/
  | mismatch
  deriving DecidableEq, Repr

/-- A reading fault: kind, message, and where the reader stood (line `0`: nowhere). -/
structure ReadError where
  category : Category
  message : String
  line : Nat := 0
  column : Nat := 0
  deriving Repr

/-- The fault as a sentence, with its place when it has one. -/
def ReadError.text (e : ReadError) : String :=
  if e.line = 0 then e.message
  else e.message ++ " at line " ++ toString e.line ++ " column " ++ toString e.column

/-- A value a field must hold when the document leaves it out; `none` makes it required. -/
abbrev Default := Option Json

/-- The form a value is stored in. -/
inductive Shape where
  /-- Any JSON value. -/
  | any
  /-- A string; `expecting` names it in messages. -/
  | text (expecting : String)
  /-- `true` or `false`. -/
  | flag
  /-- An integer in `0 ..= max`, named `name` in messages. -/
  | unsigned (name : String) (max : Nat)
  /-- An integer in `lo ..= hi`, named `name` in messages. -/
  | signed (name : String) (lo hi : Int)
  /-- `null`, or a value of the inner shape. -/
  | opt (inner : Shape)
  /-- An array of values of one shape. -/
  | list (item : Shape)
  /-- One of the given names, written as a string. -/
  | tags (names : List String)
  /-- A string that `conv` turns into the stored value, or refuses with a message. -/
  | parsed (expecting : String) (conv : String → Except String Json)
  /-- An object with the given fields; unknown members are skipped. -/
  | record (name : String) (fields : List (String × Shape × Default))
  deriving Inhabited

/-- How a shape is named in messages. -/
def Shape.expecting : Shape → String
  | .any => "any valid JSON value"
  | .text e => e
  | .flag => "a boolean"
  | .unsigned n _ => n
  | .signed n _ _ => n
  | .opt _ => "option"
  | .list _ => "a sequence"
  | .tags _ => "variant identifier"
  | .parsed e _ => e
  | .record n _ => "struct " ++ n

/-- The octets still to read, the octets read so far, and the nesting left. -/
structure Cursor where
  src : ByteArray
  pos : Nat
  room : Nat

/-- Reading: a cursor moving forward, or a fault. -/
abbrev ReadM := StateT Cursor (Except ReadError)

/-- Line and column after the first `i` octets of `src`. -/
def placeOf (src : ByteArray) (i : Nat) : Nat × Nat :=
  (src.toList.take i).foldl
    (fun (acc : Nat × Nat) b => if b = 10 then (acc.1 + 1, 0) else (acc.1, acc.2 + 1)) (1, 0)

/-- Nesting a document may reach. -/
def maxNesting : Nat := 128

/-- Fault at the octet read last. -/
def failHere {α : Type} (cat : Category) (msg : String) : ReadM α := do
  let c ← get
  let (l, col) := placeOf c.src c.pos
  throw { category := cat, message := msg, line := l, column := col }

/-- Fault at the octet about to be read. -/
def failNext {α : Type} (cat : Category) (msg : String) : ReadM α := do
  let c ← get
  let (l, col) := placeOf c.src (min (c.pos + 1) c.src.size)
  throw { category := cat, message := msg, line := l, column := col }

/-- The next octet, not taken. -/
def peek : ReadM (Option UInt8) := do
  let c ← get
  return c.src[c.pos]?

/-- Take one octet. -/
def skip : ReadM Unit := modify fun c => { c with pos := c.pos + 1 }

/-- Take the next octet. -/
def next : ReadM (Option UInt8) := do
  let b ← peek
  if b.isSome then skip
  return b

/-- Blanks between tokens: space, tab, line feed, carriage return. -/
def isSpace (b : UInt8) : Bool := b == 32 || b == 9 || b == 10 || b == 13

/-- Skip blanks and look at the octet after them. -/
def skipBlanks : ReadM (Option UInt8) := do
  let c ← get
  let rest := (c.src.toList.drop c.pos).takeWhile isSpace
  set { c with pos := c.pos + rest.length }
  peek

/-- Messages of malformed and truncated text. -/
def eofValue : String := "EOF while parsing a value"
def eofString : String := "EOF while parsing a string"
def eofList : String := "EOF while parsing a list"
def eofObject : String := "EOF while parsing an object"

/-- Read the rest of a literal word such as `rue` of `true`. -/
def expectWord : List UInt8 → ReadM Unit
  | [] => pure ()
  | w :: ws => do
    match ← next with
    | none => failHere .truncated eofValue
    | some b => if b = w then expectWord ws else failHere .malformed "expected ident"

/-- Value of a hex digit. -/
def hexValue (b : UInt8) : Option Nat :=
  if 48 ≤ b ∧ b ≤ 57 then some (b.toNat - 48)
  else if 97 ≤ b ∧ b ≤ 102 then some (b.toNat - 87)
  else if 65 ≤ b ∧ b ≤ 70 then some (b.toNat - 55)
  else none

/-- Four hex digits of a `\u` escape. All four are taken before they are checked, so a bad
digit is reported after the fourth. -/
def hexQuad : ReadM Nat := do
  let c ← get
  if c.pos + 4 > c.src.size then
    set { c with pos := c.src.size }
    failHere .truncated eofString
  let digits := (c.src.toList.drop c.pos).take 4
  set { c with pos := c.pos + 4 }
  match digits.mapM hexValue with
  | some vs => pure (vs.foldl (fun acc v => acc * 16 + v) 0)
  | none => failHere .malformed "invalid escape"

/-- UTF-8 octets of a code point. -/
def encodePoint (n : Nat) : List UInt8 := (String.singleton (Char.ofNat n)).toUTF8.toList

/-- The octets a `\u` escape stands for, after the `u`. -/
def unicodeEscape : ReadM (List UInt8) := do
  let n ← hexQuad
  if 0xDC00 ≤ n ∧ n ≤ 0xDFFF then failHere .malformed "lone leading surrogate in hex escape"
  else if n < 0xD800 ∨ 0xDBFF < n then pure (encodePoint n)
  else
    match ← peek with
    | some 92 => skip
    | some _ => do skip; failHere .malformed "unexpected end of hex escape"
    | none => failHere .truncated eofString
    match ← peek with
    | some 117 => skip
    | some _ => do skip; failHere .malformed "unexpected end of hex escape"
    | none => failHere .truncated eofString
    let m ← hexQuad
    if m < 0xDC00 ∨ 0xDFFF < m then failHere .malformed "lone leading surrogate in hex escape"
    else pure (encodePoint (((n - 0xD800) * 0x400 + (m - 0xDC00)) + 0x10000))

/-- The body of a string after its opening quote, up to and with the closing quote. -/
def stringBody (fuel : Nat) (acc : Array UInt8) : ReadM String :=
  match fuel with
  | 0 => failHere .truncated eofString
  | fuel + 1 => do
    match ← next with
    | none => failHere .truncated eofString
    | some 34 => pure ((String.fromUTF8? ⟨acc⟩).getD "")
    | some 92 =>
      match ← next with
      | none => failHere .truncated eofString
      | some b =>
        if b = 34 then stringBody fuel (acc.push 34)
        else if b = 92 then stringBody fuel (acc.push 92)
        else if b = 47 then stringBody fuel (acc.push 47)
        else if b = 98 then stringBody fuel (acc.push 8)
        else if b = 102 then stringBody fuel (acc.push 12)
        else if b = 110 then stringBody fuel (acc.push 10)
        else if b = 114 then stringBody fuel (acc.push 13)
        else if b = 116 then stringBody fuel (acc.push 9)
        else if b = 117 then do
          let bs ← unicodeEscape
          stringBody fuel (acc ++ bs.toArray)
        else failHere .malformed "invalid escape"
    | some b =>
      if b < 0x20 then
        failHere .malformed "control character (\\u0000-\\u001F) found while parsing a string"
      else stringBody fuel (acc.push b)

/-- A string, the opening quote not yet taken. -/
def readString : ReadM String := do
  skip
  let c ← get
  stringBody (c.src.size + 1) #[]

/-- Digits from the cursor on, taken. -/
def takeDigits : ReadM (List Nat) := do
  let c ← get
  let ds := (c.src.toList.drop c.pos).takeWhile fun b => 48 ≤ b && b ≤ 57
  set { c with pos := c.pos + ds.length }
  return ds.map fun b => b.toNat - 48

/-- A number read after its sign: its parts are taken
as far as they go and then valued (`Numeral.value`). -/
def readNumber (negative : Bool) : ReadM Number := do
  let first ← next
  match first with
  | none => failHere .truncated eofValue
  | some b =>
    if b < 48 ∨ 57 < b then failHere .malformed "invalid number"
    else
      let whole ← if b = 48 then do
          match ← peek with
          | some d => if 48 ≤ d ∧ d ≤ 57 then failNext .malformed "invalid number" else pure [0]
          | none => pure [0]
        else do
          let more ← takeDigits
          pure ((b.toNat - 48) :: more)
      let mut fraction : Option (List Nat) := none
      if (← peek) = some 46 then
        skip
        let frac ← takeDigits
        if frac.isEmpty then
          match ← peek with
          | some _ => failNext .malformed "invalid number"
          | none => failNext .truncated eofValue
        fraction := some frac
      let mut exponent : Option (Bool × List Nat) := none
      let p ← peek
      if p = some 101 ∨ p = some 69 then
        skip
        let mut expNeg := false
        match ← peek with
        | some 43 => skip
        | some 45 => do skip; expNeg := true
        | _ => pure ()
        match ← next with
        | none => failHere .truncated eofValue
        | some d =>
          if d < 48 ∨ 57 < d then failHere .malformed "invalid number"
          else
            let rest ← takeDigits
            exponent := some (expNeg, (d.toNat - 48) :: rest)
      match Numeral.value { negative, whole, fraction, exponent } with
      | .ok n => pure n
      | .error unread => do
        modify fun c => { c with pos := c.pos - unread }
        failHere .malformed "number out of range"

/-- How a value that does not fit a shape is described in messages; a double is written as
in JSON text. -/
def describeNumber : Number → String
  | .nat n => "integer `" ++ toString n ++ "`"
  | .neg n => "integer `-" ++ toString n ++ "`"
  | .float x => "floating point `" ++ Binary64.render numberStyle x ++ "`"

/-- A string in messages: its debug form. -/
def debugQuote (s : String) : String := Text.debugQuoted s

/-- The message of a value of the wrong type. -/
def wrongType (found : String) (s : Shape) : String :=
  "invalid type: " ++ found ++ ", expected " ++ s.expecting

/-- The message of a value out of range. -/
def wrongValue (found : String) (s : Shape) : String :=
  "invalid value: " ++ found ++ ", expected " ++ s.expecting

/-- The message of a name outside an enumeration. -/
def unknownName (v : String) (names : List String) : String :=
  let quoted := names.map fun n => "`" ++ n ++ "`"
  let listed := match quoted with
    | [] => "there are no variants"
    | [a] => "expected " ++ a
    | [a, b] => "expected " ++ a ++ " or " ++ b
    | _ => "expected one of " ++ ", ".intercalate quoted
  "unknown variant `" ++ v ++ "`, " ++ listed

/-- A number checked against an integer shape. -/
def fitNumber (s : Shape) (n : Number) : Except String Json :=
  match s, n with
  | .unsigned _ max, .nat v => if v ≤ max then .ok (.num n) else .error (wrongValue (describeNumber n) s)
  | .unsigned _ _, .neg _ => .error (wrongValue (describeNumber n) s)
  | .signed _ _ hi, .nat v =>
    if (v : Int) ≤ hi then .ok (.num n) else .error (wrongValue (describeNumber n) s)
  | .signed _ lo _, .neg v =>
    if lo ≤ -(v : Int) then .ok (.num n) else .error (wrongValue (describeNumber n) s)
  | _, _ => .error (wrongType (describeNumber n) s)

/-- Enter a nested array or object. -/
def enterNesting : ReadM Unit := do
  let c ← get
  if c.room ≤ 1 then failNext .malformed "recursion limit exceeded"
  set { c with room := c.room - 1 }

/-- Leave a nested array or object. -/
def leaveNesting : ReadM Unit := modify fun c => { c with room := c.room + 1 }

/-- Read what stands where a value of shape `s` is expected, when the text holds a value of
another type: consume it as far as the reader does and fault with the mismatch. -/
def mismatchAt {α : Type} (s : Shape) (b : UInt8) : ReadM α := do
  if b = 110 then do skip; expectWord [117, 108, 108]; failHere .mismatch (wrongType "null" s)
  else if b = 116 then do skip; expectWord [114, 117, 101]; failHere .mismatch (wrongType "boolean `true`" s)
  else if b = 102 then do
    skip; expectWord [97, 108, 115, 101]; failHere .mismatch (wrongType "boolean `false`" s)
  else if b = 45 then do
    skip
    let n ← readNumber true
    failHere .mismatch (wrongType (describeNumber n) s)
  else if 48 ≤ b ∧ b ≤ 57 then do
    let n ← readNumber false
    failHere .mismatch (wrongType (describeNumber n) s)
  else if b = 34 then do
    let str ← readString
    failHere .mismatch (wrongType ("string " ++ debugQuote str) s)
  else if b = 91 then failHere .mismatch (wrongType "sequence" s)
  else if b = 123 then failHere .mismatch (wrongType "map" s)
  else failNext .malformed "expected value"

/-- The next key of an object, or none at its closing brace (not taken). -/
def nextKey (first : Bool) : ReadM (Option String) := do
  let b ← skipBlanks
  let b ← match b with
    | some 125 => return none
    | some 44 =>
      if first then failNext .malformed "key must be a string"
      else do skip; skipBlanks
    | some x => if first then pure (some x) else failNext .malformed "expected `,` or `\x7d`"
    | none => failNext .truncated eofObject
  match b with
  | some 34 => pure (some (← readString))
  | some 125 => failNext .malformed "trailing comma"
  | some _ => failNext .malformed "key must be a string"
  | none => failNext .truncated eofValue

/-- The colon between a key and its value. -/
def expectColon : ReadM Unit := do
  match ← skipBlanks with
  | some 58 => skip
  | some _ => failNext .malformed "expected `:`"
  | none => failNext .truncated eofObject

/-- The closing bracket of an array. -/
def closeArray : ReadM Unit := do
  match ← skipBlanks with
  | some 93 => skip
  | some 44 => do
    skip
    match ← skipBlanks with
    | some 93 => failNext .malformed "trailing comma"
    | _ => failNext .malformed "trailing characters"
  | some _ => failNext .malformed "trailing characters"
  | none => failNext .truncated eofList

/-- The closing brace of an object. -/
def closeObject : ReadM Unit := do
  match ← skipBlanks with
  | some 125 => skip
  | some 44 => failNext .malformed "trailing comma"
  | some _ => failNext .malformed "trailing characters"
  | none => failNext .truncated eofObject

/-! ### Skipping a value

A member that a record does not know is skipped rather than read. Skipping checks only the
form of the text: a `\u` escape may name half of a surrogate pair, a number may be too
large for any type, and nesting has no limit. A number cut short by the end of the text is
malformed here, where reading it would find the text truncated.
-/

/-- The rest of a skipped string after its opening quote, up to and with the closing quote.
A control character is reported where it stands, before it is taken. -/
def skipStringBody (fuel : Nat) : ReadM Unit :=
  match fuel with
  | 0 => failHere .truncated eofString
  | fuel + 1 => do
    match ← peek with
    | none => failHere .truncated eofString
    | some 34 => skip
    | some 92 =>
      skip
      match ← next with
      | none => failHere .truncated eofString
      | some b =>
        if b = 34 ∨ b = 92 ∨ b = 47 ∨ b = 98 ∨ b = 102 ∨ b = 110 ∨ b = 114 ∨ b = 116 then
          skipStringBody fuel
        else if b = 117 then do
          let _ ← hexQuad
          skipStringBody fuel
        else failHere .malformed "invalid escape"
    | some b =>
      if b < 0x20 then
        failHere .malformed "control character (\\u0000-\\u001F) found while parsing a string"
      else do
        skip
        skipStringBody fuel

/-- The exponent of a skipped number, from its `e`. -/
def skipExponent : ReadM Unit := do
  skip
  match ← peek with
  | some 43 | some 45 => skip
  | _ => pure ()
  match ← next with
  | some d =>
    if 48 ≤ d ∧ d ≤ 57 then do let _ ← takeDigits; pure ()
    else failHere .malformed "invalid number"
  | none => failHere .malformed "invalid number"

/-- The fraction of a skipped number, from its point. -/
def skipFraction : ReadM Unit := do
  skip
  let ds ← takeDigits
  if ds.isEmpty then failNext .malformed "invalid number"
  match ← peek with
  | some 101 | some 69 => skipExponent
  | _ => pure ()

/-- A skipped number after its sign. -/
def skipNumber : ReadM Unit := do
  match ← next with
  | some 48 =>
    match ← peek with
    | some d => if 48 ≤ d ∧ d ≤ 57 then failNext .malformed "invalid number"
    | none => pure ()
  | some b =>
    if 49 ≤ b ∧ b ≤ 57 then do let _ ← takeDigits; pure ()
    else failHere .malformed "invalid number"
  | none => failHere .malformed "invalid number"
  match ← peek with
  | some 46 => skipFraction
  | some 101 | some 69 => skipExponent
  | _ => pure ()

mutual

/-- Skip one value. -/
def skipValue (fuel : Nat) : ReadM Unit :=
  match fuel with
  | 0 => failHere .malformed "recursion limit exceeded"
  | fuel + 1 => do
    match ← skipBlanks with
    | none => failNext .truncated eofValue
    | some b =>
      if b = 110 then do skip; expectWord [117, 108, 108]
      else if b = 116 then do skip; expectWord [114, 117, 101]
      else if b = 102 then do skip; expectWord [97, 108, 115, 101]
      else if b = 45 then do skip; skipNumber
      else if 48 ≤ b ∧ b ≤ 57 then skipNumber
      else if b = 34 then do
        skip
        let c ← get
        skipStringBody (c.src.size + 1)
      else if b = 91 then do skip; skipItems fuel true
      else if b = 123 then do skip; skipEntries fuel true
      else failNext .malformed "expected value"

/-- Skip the items of an array after its opening bracket, and its closing bracket. -/
def skipItems (fuel : Nat) (first : Bool) : ReadM Unit :=
  match fuel with
  | 0 => failHere .malformed "recursion limit exceeded"
  | fuel + 1 => do
    match ← skipBlanks with
    | none => failNext .truncated eofList
    | some 93 => skip
    | some b =>
      if first then do
        skipValue fuel
        skipItems fuel false
      else if b = 44 then do
        skip
        skipValue fuel
        skipItems fuel false
      else failNext .malformed "expected `,` or `]`"

/-- Skip the members of an object after its opening brace, and its closing brace. -/
def skipEntries (fuel : Nat) (first : Bool) : ReadM Unit :=
  match fuel with
  | 0 => failHere .malformed "recursion limit exceeded"
  | fuel + 1 => do
    match ← skipBlanks with
    | none => failNext .truncated eofObject
    | some 125 => skip
    | some b =>
      if !first then
        if b = 44 then skip else failNext .malformed "expected `,` or `\x7d`"
      match ← skipBlanks with
      | some 34 =>
        skip
        let c ← get
        skipStringBody (c.src.size + 1)
      | some _ => failNext .malformed "key must be a string"
      | none => failNext .truncated eofObject
      expectColon
      skipValue fuel
      skipEntries fuel false

end

/-- Fields read, completed by defaults and put in declaration order; the first required
field left out is the fault. -/
def completeFields (fields : List (String × Shape × Default)) (got : List (String × Json)) :
    Except String Json := do
  let ms ← fields.mapM fun (name, s, dflt) =>
    match got.lookup name with
    | some v => .ok (name, v)
    | none =>
      match s, dflt with
      | _, some d => .ok (name, d)
      | .opt _, none => .ok (name, .null)
      | _, none => .error ("missing field `" ++ name ++ "`")
  return .obj ms

mutual

/-- Any value. -/
def readAny (fuel : Nat) : ReadM Json :=
  match fuel with
  | 0 => failHere .malformed "recursion limit exceeded"
  | fuel + 1 => do
    match ← skipBlanks with
    | none => failNext .truncated eofValue
    | some b =>
      if b = 110 then do skip; expectWord [117, 108, 108]; pure .null
      else if b = 116 then do skip; expectWord [114, 117, 101]; pure (.bool true)
      else if b = 102 then do skip; expectWord [97, 108, 115, 101]; pure (.bool false)
      else if b = 45 then do
        skip
        pure (.num (← readNumber true))
      else if 48 ≤ b ∧ b ≤ 57 then do
        pure (.num (← readNumber false))
      else if b = 34 then do pure (.str (← readString))
      else if b = 91 then do
        enterNesting
        skip
        let items ← readItems fuel .any true []
        closeArray
        leaveNesting
        pure (.arr items)
      else if b = 123 then do
        enterNesting
        skip
        let ms ← readMembers fuel true []
        closeObject
        leaveNesting
        pure (.obj (sortMembers ms))
      else failNext .malformed "expected value"

/-- Items of an array after its opening bracket, up to (not taking) the closing bracket. -/
def readItems (fuel : Nat) (s : Shape) (first : Bool) (acc : List Json) : ReadM (List Json) :=
  match fuel with
  | 0 => failHere .malformed "recursion limit exceeded"
  | fuel + 1 => do
    match ← skipBlanks with
    | none => failNext .truncated eofList
    | some b =>
      if b = 93 then pure acc.reverse
      else if first then do
        let v ← readShape fuel s
        readItems fuel s false (v :: acc)
      else if b = 44 then do
        skip
        match ← skipBlanks with
        | some 93 => failNext .malformed "trailing comma"
        | some _ => do
          let v ← readShape fuel s
          readItems fuel s false (v :: acc)
        | none => failNext .truncated eofValue
      else failNext .malformed "expected `,` or `]`"

/-- Members of a free-form object after its opening brace, up to the closing brace. -/
def readMembers (fuel : Nat) (first : Bool) (acc : List (String × Json)) :
    ReadM (List (String × Json)) :=
  match fuel with
  | 0 => failHere .malformed "recursion limit exceeded"
  | fuel + 1 => do
    match ← nextKey first with
    | none => pure acc.reverse
    | some k => do
      expectColon
      let v ← readAny fuel
      readMembers fuel false ((k, v) :: acc)

/-- A value of shape `s`. -/
def readShape (fuel : Nat) (s : Shape) : ReadM Json :=
  match fuel with
  | 0 => failHere .malformed "recursion limit exceeded"
  | fuel + 1 => do
    match s with
    | .any => readAny fuel
    | .opt inner => do
      match ← skipBlanks with
      | some 110 => do skip; expectWord [117, 108, 108]; pure .null
      | _ => readShape fuel inner
    | _ => do
    match ← skipBlanks with
    | none => failNext .truncated eofValue
    | some b =>
      match s with
      | .text _ => if b = 34 then do pure (.str (← readString)) else mismatchAt s b
      | .parsed _ conv =>
        if b = 34 then do
          let str ← readString
          match conv str with
          | .ok v => pure v
          | .error msg => failHere .mismatch msg
        else mismatchAt s b
      | .flag =>
        if b = 116 then do skip; expectWord [114, 117, 101]; pure (.bool true)
        else if b = 102 then do skip; expectWord [97, 108, 115, 101]; pure (.bool false)
        else mismatchAt s b
      | .unsigned _ _ | .signed _ _ _ =>
        if b = 45 ∨ (48 ≤ b ∧ b ≤ 57) then do
          if b = 45 then skip
          let n ← readNumber (b = 45)
          match fitNumber s n with
          | .ok v => pure v
          | .error msg => failHere .mismatch msg
        else mismatchAt s b
      | .list item =>
        if b = 91 then do
          enterNesting
          skip
          let items ← readItems fuel item true []
          closeArray
          leaveNesting
          pure (.arr items)
        else mismatchAt s b
      | .tags names =>
        if b = 34 then do
          let str ← readString
          if names.contains str then pure (.str str) else failHere .mismatch (unknownName str names)
        else if b = 123 then do
          enterNesting
          skip
          match ← skipBlanks with
          | some 34 => pure ()
          | some _ => failNext .malformed "expected value"
          | none => failNext .truncated eofValue
          let str ← readString
          if !names.contains str then failHere .mismatch (unknownName str names)
          expectColon
          match ← skipBlanks with
          | some 110 => do skip; expectWord [117, 108, 108]
          | some b2 => mismatchAt (.text "unit") b2
          | none => failNext .truncated eofValue
          match ← skipBlanks with
          | some 125 => skip
          | some _ => failHere .malformed "expected value"
          | none => failHere .truncated eofObject
          leaveNesting
          pure (.str str)
        else failNext .malformed "expected value"
      | .record name fields =>
        if b = 123 then do
          enterNesting
          skip
          let got ← readFields fuel fields true []
          closeObject
          leaveNesting
          match completeFields fields got with
          | .ok v => pure v
          | .error msg => failHere .mismatch msg
        else if b = 91 then do
          enterNesting
          skip
          let got ← readPositional fuel fields.length ("struct " ++ name) fields 0 []
          closeArray
          leaveNesting
          pure (.obj got)
        else mismatchAt s b
      | _ => mismatchAt s b

/-- Members of a record after its opening brace: the known fields read, the rest skipped. -/
def readFields (fuel : Nat) (fields : List (String × Shape × Default)) (first : Bool)
    (acc : List (String × Json)) : ReadM (List (String × Json)) :=
  match fuel with
  | 0 => failHere .malformed "recursion limit exceeded"
  | fuel + 1 => do
    match ← nextKey first with
    | none => pure acc
    | some k =>
      match fields.find? (·.1 == k) with
      | some (_, fs, _) =>
        if acc.any (·.1 == k) then failHere .mismatch ("duplicate field `" ++ k ++ "`")
        else do
          expectColon
          let v ← readShape fuel fs
          readFields fuel fields false ((k, v) :: acc)
      | none => do
        expectColon
        skipValue fuel
        readFields fuel fields false acc

/-- Elements of a record written as an array, one per field in declaration order, after
the element `index`; a field past the last element takes its default, and a field without
one makes the array too short. -/
def readPositional (fuel : Nat) (count : Nat) (what : String)
    (fields : List (String × Shape × Default)) (index : Nat) (acc : List (String × Json)) :
    ReadM (List (String × Json)) :=
  match fuel, fields with
  | 0, _ => failHere .malformed "recursion limit exceeded"
  | _, [] => pure acc.reverse
  | fuel + 1, (name, fs, dflt) :: rest => do
    let present ← match ← skipBlanks with
      | some 93 => pure false
      | some 44 =>
        if index = 0 then pure true
        else do
          skip
          match ← skipBlanks with
          | some 93 => failNext .malformed "trailing comma"
          | some _ => pure true
          | none => failNext .truncated eofValue
      | some _ =>
        if index = 0 then pure true else failNext .malformed "expected `,` or `]`"
      | none => failNext .truncated eofList
    let short := "invalid length " ++ toString index ++ ", expected " ++ what ++ " with " ++
      toString count ++ " elements"
    let v ← if present then readShape fuel fs
      else match dflt with
        | some d => pure d
        | none => failHere .mismatch short
    readPositional fuel count what rest (index + 1) ((name, v) :: acc)

end

end AgentDeck.Json

namespace AgentDeck.Json

/-- Read a whole document of shape `s`; only blanks may follow the value. -/
def readDocument (s : Shape) (text : String) : Except ReadError Json :=
  let src := text.toUTF8
  let run : ReadM Json := do
    let v ← readShape (4 * src.size + 64) s
    match ← skipBlanks with
    | some _ => failNext .malformed "trailing characters"
    | none => pure v
  (run.run' { src := src, pos := 0, room := maxNesting })

/-- Read any JSON document. -/
def parse (text : String) : Except ReadError Json := readDocument .any text

end AgentDeck.Json
