import AgentDeck.Toml.Value
import AgentDeck.Text.Search

/-!
Reading TOML 1.0 documents.

The reader takes the text line by line: blank lines and comments, `key = value` pairs,
`[table]` headers and `[[array]]` headers. Keys are bare (ASCII letters, digits, `_`, `-`)
or quoted, and may be dotted. Values are strings in four forms, integers (decimal, or hex,
octal and binary with a prefix; underscores only between digits; no leading zeros; within
64-bit signed range), floats (finite, or an infinity only from a negative number too large),
booleans, dates and times, arrays (which may span lines) and inline tables (which may not).
Arrays and inline tables nest fewer than `nestingLimit` deep, and a key has fewer than
`nestingLimit` parts, so that reading never runs deeper than that bound.

Building the tree follows the rules on tables: a table is defined once; a header may name a
table that so far only existed on the way to another header; dotted keys extend only tables
that dotted keys made; a value or an inline table takes no additions. The table under the
current header is filled apart from the document and put in place when the next header
comes or the text ends.
-/

namespace AgentDeck.Toml

/-- Reading from the left; a fault is a message. -/
abbrev Parse := StateT (List Char) (Except String)

/-- A step that cannot fail on the text, taken into reading. -/
def lift {α : Type} (e : Except String α) : Parse α :=
  match e with
  | .ok a => pure a
  | .error m => throw m

/-- Blanks within a line. -/
def isWs (c : Char) : Bool := c == ' ' || c == '\t'

/-- Characters allowed in comments and strings: tab, and all but control characters. -/
def isTextChar (c : Char) : Bool := c == '\t' || (c.toNat ≥ 0x20 && c.toNat != 0x7F)

/-- Characters of a bare key. -/
def isBareKeyChar (c : Char) : Bool := c.isAlphanum || c == '_' || c == '-'

/-- Skip blanks. -/
def skipWs : Parse Unit := modify (·.dropWhile isWs)

/-- Skip a comment, if one starts here. -/
def skipComment : Parse Unit := do
  match ← get with
  | '#' :: rest =>
    let body := rest.takeWhile fun c => c != '\n' && c != '\r'
    if !body.all isTextChar then throw "control character in comment"
    set (rest.drop body.length)
  | _ => pure ()

/-- A line break, if one starts here. -/
def lineBreak? : Parse Bool := do
  match ← get with
  | '\n' :: rest => set rest; return true
  | '\r' :: '\n' :: rest => set rest; return true
  | _ => return false

/-- The end of a line: blanks, perhaps a comment, then a line break or the end of the text. -/
def lineEnd : Parse Unit := do
  skipWs
  skipComment
  match ← get with
  | [] => pure ()
  | _ => if !(← lineBreak?) then throw "expected newline"

/-- The value of `n` hexadecimal digits at the front, and the rest. -/
def hexRun (n : Nat) (cs : List Char) : Option (Nat × List Char) :=
  let ds := cs.take n
  if ds.length == n && ds.all Char.isHexDigit then
    some (ds.foldl (fun acc c =>
      acc * 16 + (if c.isDigit then c.toNat - 48 else (c.toLower.toNat - 87))) 0, cs.drop n)
  else none

/-- A Unicode scalar value. -/
def isScalar (n : Nat) : Bool := n < 0xD800 || (0xE000 ≤ n && n ≤ 0x10FFFF)

/-- The character an escape after a backslash stands for, and the rest. -/
def escape (cs : List Char) : Except String (Char × List Char) :=
  match cs with
  | 'b' :: r => .ok ('\x08', r)
  | 't' :: r => .ok ('\t', r)
  | 'n' :: r => .ok ('\n', r)
  | 'f' :: r => .ok ('\x0c', r)
  | 'r' :: r => .ok ('\r', r)
  | '"' :: r => .ok ('"', r)
  | '\\' :: r => .ok ('\\', r)
  | 'u' :: r => unicode 4 r
  | 'U' :: r => unicode 8 r
  | _ => .error "invalid escape"
where
  /-- A code point of `n` hex digits. -/
  unicode (n : Nat) (r : List Char) : Except String (Char × List Char) :=
    match hexRun n r with
    | some (v, rest) => if isScalar v then .ok (Char.ofNat v, rest) else .error "invalid unicode"
    | none => .error "invalid unicode"

/-- The body of a one-line basic string after its opening quote. -/
def basicBody (fuel : Nat) (acc : List Char) : Parse String :=
  match fuel with
  | 0 => throw "unterminated string"
  | fuel + 1 => do
    match ← get with
    | [] => throw "unterminated string"
    | '"' :: rest => set rest; return String.ofList acc.reverse
    | '\\' :: rest =>
      let (c, r) ← lift (escape rest)
      set r
      basicBody fuel (c :: acc)
    | c :: rest =>
      if isTextChar c then do set rest; basicBody fuel (c :: acc)
      else throw "invalid character in string"

/-- The body of a one-line literal string after its opening quote. -/
def literalBody : Parse String := do
  let s ← get
  let body := s.takeWhile fun c => c != '\''
  if !body.all isTextChar then throw "invalid character in string"
  match s.drop body.length with
  | '\'' :: rest => set rest; return String.ofList body
  | _ => throw "unterminated string"

/-- Drop one line break at the front. -/
def dropLeadBreak (cs : List Char) : List Char :=
  match cs with
  | '\n' :: r => r
  | '\r' :: '\n' :: r => r
  | _ => cs

/-- A run of `q` at the front of a multi-line string body: three or more close the string,
with up to two of them kept as content. Answers the kept quotes and whether it closed. -/
def quoteRun (q : Char) (cs : List Char) : Except String (List Char × Bool × List Char) :=
  let run := cs.takeWhile (· == q)
  let rest := cs.drop run.length
  if run.length ≥ 3 then
    if run.length - 3 > 2 then .error "too many quotes" else .ok (run.drop 3, true, rest)
  else .ok (run, false, rest)

/-- Skip blanks and line breaks after a line-ending backslash. -/
def skipWrapped (fuel : Nat) (cs : List Char) : List Char :=
  match fuel with
  | 0 => cs
  | fuel + 1 =>
    match cs with
    | c :: r => if isWs c || c == '\n' then skipWrapped fuel r
      else if c == '\r' then (match r with
        | '\n' :: r' => skipWrapped fuel r'
        | _ => cs)
      else cs
    | [] => []

/-- The body of a multi-line string after its opening quotes; `basic` allows escapes. -/
def multiBody (basic : Bool) (fuel : Nat) (acc : List Char) : Parse String :=
  match fuel with
  | 0 => throw "unterminated string"
  | fuel + 1 => do
    let q := if basic then '"' else '\''
    match ← get with
    | [] => throw "unterminated string"
    | c :: rest =>
      if c == q then
        let (kept, closed, r) ← lift (quoteRun q (c :: rest))
        set r
        if closed then return String.ofList (acc.reverse ++ kept)
        else multiBody basic fuel (kept.reverse ++ acc)
      else if c == '\\' && basic then
        let afterWs := rest.dropWhile isWs
        match afterWs with
        | '\n' :: _ | '\r' :: '\n' :: _ =>
          set (skipWrapped (rest.length + 1) rest)
          multiBody basic fuel acc
        | _ =>
          let (e, r) ← lift (escape rest)
          set r
          multiBody basic fuel (e :: acc)
      else if c == '\n' then do set rest; multiBody basic fuel ('\n' :: acc)
      else if c == '\r' then
        match rest with
        | '\n' :: r => do set r; multiBody basic fuel ('\n' :: acc)
        | _ => throw "invalid character in string"
      else if isTextChar c then do set rest; multiBody basic fuel (c :: acc)
      else throw "invalid character in string"

/-- A string in any of its forms, at its opening quote. -/
def stringValue : Parse String := do
  let s ← get
  match s with
  | '"' :: '"' :: '"' :: rest =>
    set (dropLeadBreak rest); multiBody true (s.length + 1) []
  | '"' :: rest => set rest; basicBody (s.length + 1) []
  | '\'' :: '\'' :: '\'' :: rest =>
    set (dropLeadBreak rest); multiBody false (s.length + 1) []
  | '\'' :: rest => set rest; literalBody
  | _ => throw "expected string"

/-- One key, bare or quoted; multi-line strings are not keys. -/
def simpleKey : Parse String := do
  let s ← get
  match s with
  | '"' :: rest => set rest; basicBody (s.length + 1) []
  | '\'' :: rest => set rest; literalBody
  | _ =>
    let bare := s.takeWhile isBareKeyChar
    if bare.isEmpty then throw "expected key"
    set (s.drop bare.length)
    return String.ofList bare

/-- How deep arrays and inline tables may nest, and how many parts a key may have: both
stay below this bound. -/
def nestingLimit : Nat := 80

/-- Keys joined by dots, blanks allowed around the dots. -/
def dottedParts (fuel : Nat) : Parse (List String) :=
  match fuel with
  | 0 => throw "key too long"
  | fuel + 1 => do
    skipWs
    let k ← simpleKey
    skipWs
    match ← get with
    | '.' :: rest => set rest; return k :: (← dottedParts fuel)
    | _ => return [k]

/-- A dotted key, of fewer than `nestingLimit` parts. -/
def dottedKey (fuel : Nat) : Parse (List String) := do
  let path ← dottedParts fuel
  if path.length < nestingLimit then return path else throw "recursion limit exceeded"

/-! ### Numbers, dates and times -/

/-- Digits with single underscores between them, and at least one digit. -/
def isDigitRun (cs : List Char) : Bool :=
  match cs with
  | [] => false
  | c :: _ =>
    c.isDigit && (cs.getLast?.map Char.isDigit).getD false &&
      !(Text.occurs ['_', '_'] cs) && cs.all fun d => d.isDigit || d == '_'

/-- Like `isDigitRun` for digits of another base. -/
def isRunOf (ok : Char → Bool) (cs : List Char) : Bool :=
  match cs with
  | [] => false
  | c :: _ =>
    ok c && (cs.getLast?.map ok).getD false && !(Text.occurs ['_', '_'] cs) &&
      cs.all fun d => ok d || d == '_'

/-- The value of digits in a base, underscores skipped. -/
def runValue (base : Nat) (cs : List Char) : Nat :=
  (cs.filter (· != '_')).foldl (fun acc c =>
    acc * base + (if c.isDigit then c.toNat - 48 else c.toLower.toNat - 87)) 0

/-- The largest 64-bit signed integer. -/
def i64Max : Nat := Nat.pow 2 63 - 1

/-- `n` decimal digits at the front. -/
def fixedDigits (n : Nat) (cs : List Char) : Option (Nat × List Char) :=
  let ds := cs.take n
  if ds.length == n && ds.all Char.isDigit then some (runValue 10 ds, cs.drop n) else none

/-- A time of day `HH:MM:SS` with an optional fraction; the rest. -/
def timeOfDay (cs : List Char) : Option (List Char) := do
  let (h, r) ← fixedDigits 2 cs
  let r ← match r with
    | ':' :: r => some r
    | _ => none
  let (m, r) ← fixedDigits 2 r
  let r ← match r with
    | ':' :: r => some r
    | _ => none
  let (s, r) ← fixedDigits 2 r
  if h > 23 || m > 59 || s > 60 then none
  match r with
  | '.' :: r =>
    let ds := r.takeWhile Char.isDigit
    if ds.isEmpty then none else some (r.drop ds.length)
  | _ => some r

/-- Days in month `mo` of year `y`, leap years counted. -/
def daysInMonth (y mo : Nat) : Nat :=
  if mo == 2 then (if y % 4 == 0 && (y % 100 != 0 || y % 400 == 0) then 29 else 28)
  else if mo == 4 || mo == 6 || mo == 9 || mo == 11 then 30
  else 31

/-- A date `YYYY-MM-DD` that names a day of the calendar; the rest. -/
def calendarDate (cs : List Char) : Option (List Char) := do
  let (y, r) ← fixedDigits 4 cs
  let r ← match r with
    | '-' :: r => some r
    | _ => none
  let (mo, r) ← fixedDigits 2 r
  let r ← match r with
    | '-' :: r => some r
    | _ => none
  let (d, r) ← fixedDigits 2 r
  if mo < 1 || mo > 12 || d < 1 || d > daysInMonth y mo then none else some r

/-- An offset: `Z`, `z`, or a signed `HH:MM`; the rest. -/
def utcOffset (cs : List Char) : Option (List Char) :=
  match cs with
  | 'Z' :: r | 'z' :: r => some r
  | c :: r =>
    if c == '+' || c == '-' then do
      let (h, r) ← fixedDigits 2 r
      let r ← match r with
        | ':' :: r => some r
        | _ => none
      let (m, r) ← fixedDigits 2 r
      if h > 23 || m > 59 then none else some r
    else none
  | [] => none

/-- The text is a date, a time, or a date and time with an optional offset. -/
def isDatetime (cs : List Char) : Bool :=
  match calendarDate cs with
  | some [] => true
  | some (sep :: r) =>
    if sep == 'T' || sep == 't' || sep == ' ' then
      match timeOfDay r with
      | some [] => true
      | some r' => utcOffset r' == some []
      | none => false
    else false
  | none => timeOfDay cs == some []

/-- The sign of a number and the text after it. -/
def splitSign (cs : List Char) : Bool × List Char :=
  match cs with
  | '+' :: r => (false, r)
  | '-' :: r => (true, r)
  | _ => (false, cs)

/-- The least value that a float rounds up to infinity from: `2^1024 - 2^970`. -/
def floatLimit : Nat := Nat.pow 2 1024 - Nat.pow 2 970

/-- A decimal float `digits × 10^exp` is too large for a 64-bit float. With `k` digits the
number lies in `[10^(k-1+exp), 10^(k+exp))`, which settles the question unless that range
meets `[10^308, 10^309)`, where the limit lies; there it is compared exactly. -/
def overflows (digits : Nat) (exp : Int) : Bool :=
  let k : Int := (Nat.toDigits 10 digits).length
  if digits == 0 then false
  else if k + exp ≤ 308 then false
  else if k - 1 + exp ≥ 309 then true
  else if exp ≥ 0 then digits * Nat.pow 10 exp.toNat ≥ floatLimit
  else digits ≥ floatLimit * Nat.pow 10 (-exp).toNat

/-- A decimal integer or float. -/
def decimal (cs : List Char) : Except String Value :=
  let (negative, body) := splitSign cs
  let intPart := body.takeWhile fun c => c.isDigit || c == '_'
  let rest := body.drop intPart.length
  if !isDigitRun intPart then .error "invalid number"
  else if intPart.length > 1 && intPart.head? == some '0' then .error "leading zero"
  else
    let (frac, rest) : List Char × List Char :=
      match rest with
      | '.' :: r => let f := r.takeWhile fun c => c.isDigit || c == '_'; (('.' :: f), r.drop f.length)
      | _ => ([], rest)
    let fracOk := frac.isEmpty || isDigitRun frac.tail
    let (expo, rest) : List Char × List Char :=
      match rest with
      | e :: r => if e == 'e' || e == 'E' then (e :: r, []) else ([], rest)
      | [] => ([], [])
    if !fracOk || !rest.isEmpty then .error "invalid number"
    else if frac.isEmpty && expo.isEmpty then
      let v := runValue 10 intPart
      if negative then (if v ≤ i64Max + 1 then .ok (.int (-(v : Int))) else .error "out of range")
      else if v ≤ i64Max then .ok (.int v) else .error "out of range"
    else
      let (expNeg, expDigits) := splitSign expo.tail
      if !expo.isEmpty && !isDigitRun expDigits then .error "invalid number"
      else
        let fracDigits := if frac.isEmpty then [] else frac.tail.filter (· != '_')
        let mant := runValue 10 (intPart ++ fracDigits)
        let e0 : Int := if expo.isEmpty then 0 else (runValue 10 expDigits : Int)
        let e : Int := (if expNeg then -e0 else e0) - fracDigits.length
        if !negative && overflows mant e then .error "float overflow"
        else .ok (.float (Binary64.ofDecimal negative mant e))

/-- A number, date or time written as one token. -/
def scalar (cs : List Char) : Except String Value :=
  if isDatetime cs then .ok (.datetime (String.ofList cs))
  else if cs == "inf".toList || cs == "+inf".toList then .ok (.float (.infinite false))
  else if cs == "-inf".toList then .ok (.float (.infinite true))
  else if cs == "nan".toList || cs == "+nan".toList || cs == "-nan".toList then .ok (.float .nan)
  else
    match cs with
    | '0' :: 'x' :: r => based 16 Char.isHexDigit r
    | '0' :: 'o' :: r => based 8 (fun c => '0' ≤ c && c ≤ '7') r
    | '0' :: 'b' :: r => based 2 (fun c => c == '0' || c == '1') r
    | _ => decimal cs
where
  /-- Digits of a base after its prefix. -/
  based (base : Nat) (ok : Char → Bool) (r : List Char) : Except String Value :=
    if isRunOf ok r then
      let v := runValue base r
      if v ≤ i64Max then .ok (.int v) else .error "out of range"
    else .error "invalid number"

/-- Characters that may stand in a number, date or time. -/
def isTokenChar (c : Char) : Bool :=
  c.isAlphanum || c == '_' || c == '+' || c == '-' || c == '.' || c == ':'

/-- Read a number, date or time; a date may be followed by a blank and a time. -/
def scalarToken : Parse Value := do
  let s ← get
  let tok := s.takeWhile isTokenChar
  let rest := s.drop tok.length
  let (tok, rest) :=
    match calendarDate tok, rest with
    | some [], ' ' :: d1 :: d2 :: ':' :: _ =>
      if d1.isDigit && d2.isDigit then
        let more := rest.tail.takeWhile isTokenChar
        (tok ++ ' ' :: more, rest.tail.drop more.length)
      else (tok, rest)
    | _, _ => (tok, rest)
  let v ← lift (scalar tok)
  set rest
  return v

/-! ### Values and inline tables -/

/-- Put a value at a dotted key into the entries of an inline table. `top` tells that the
key has no dots; `dotted` that the table at hand was made by dotted keys. -/
def inlinePut (key : String) (v : Value) :
    List String → Bool → Bool → List (String × Value) → Except String (List (String × Value))
  | [], top, dotted, entries =>
    if dotted == top then .error "duplicate key"
    else if entries.any (·.1 == key) then .error "duplicate key"
    else .ok (entries ++ [(key, v)])
  | p :: ps, _, _, entries =>
    match entries.lookup p with
    | none => do
      let sub ← inlinePut key v ps false true []
      return entries ++ [(p, .inline true sub)]
    | some (.inline d sub) =>
      if !d then .error "duplicate key"
      else do
        let sub ← inlinePut key v ps false d sub
        return entries.map fun (k, n) => if k == p then (k, .inline d sub) else (k, n)
    | some _ => .error "key extends a value"

/-- Skip blanks, comments and line breaks inside an array. -/
def skipArraySpace (fuel : Nat) : Parse Unit :=
  match fuel with
  | 0 => pure ()
  | fuel + 1 => do
    skipWs
    skipComment
    if ← lineBreak? then skipArraySpace fuel

mutual

/-- A value inside `depth` arrays and inline tables; an array or inline table that would
reach `nestingLimit` is refused. -/
def value (depth fuel : Nat) : Parse Value :=
  match fuel with
  | 0 => throw "nesting too deep"
  | fuel + 1 => do
    let s ← get
    let deeper (rest : List Char) : Parse Unit := do
      if depth + 1 < nestingLimit then set rest else throw "recursion limit exceeded"
    match s with
    | '"' :: _ | '\'' :: _ => return .str (← stringValue)
    | '[' :: rest => deeper rest; return .array (← arrayItems (depth + 1) fuel [])
    | '{' :: rest =>
      deeper rest
      skipWs
      match ← get with
      | '}' :: r => set r; return .inline false []
      | _ => return .inline false (← inlineMembers (depth + 1) fuel [])
    | 't' :: 'r' :: 'u' :: 'e' :: rest => set rest; return .bool true
    | 'f' :: 'a' :: 'l' :: 's' :: 'e' :: rest => set rest; return .bool false
    | c :: _ =>
      if c.isDigit || c == '+' || c == '-' || c == 'i' || c == 'n' then scalarToken
      else throw "expected value"
    | [] => throw "expected value"

/-- Items of an array after its opening bracket, through its closing bracket. -/
def arrayItems (depth fuel : Nat) (acc : List Value) : Parse (List Value) :=
  match fuel with
  | 0 => throw "nesting too deep"
  | fuel + 1 => do
    skipArraySpace ((← get).length + 1)
    match ← get with
    | ']' :: rest => set rest; return acc.reverse
    | _ =>
      let v ← value depth fuel
      skipArraySpace ((← get).length + 1)
      match ← get with
      | ',' :: rest => set rest; arrayItems depth fuel (v :: acc)
      | ']' :: rest => set rest; return (v :: acc).reverse
      | _ => throw "expected comma or end of array"

/-- Members of an inline table after its opening brace, through its closing brace. -/
def inlineMembers (depth fuel : Nat) (acc : List (String × Value)) :
    Parse (List (String × Value)) :=
  match fuel with
  | 0 => throw "nesting too deep"
  | fuel + 1 => do
    let path ← dottedKey ((← get).length + 1)
    match ← get with
    | '=' :: rest => set rest
    | _ => throw "expected ="
    skipWs
    let v ← value depth fuel
    let acc ← lift (inlinePut (path.getLast?.getD "") v path.dropLast path.dropLast.isEmpty false acc)
    skipWs
    match ← get with
    | ',' :: rest => set rest; skipWs; inlineMembers depth fuel acc
    | '}' :: rest => set rest; return acc
    | _ => throw "expected comma or end of inline table"

end

/-! ### The document -/

/-- Apply `f` to the table at `path` below `entries`, creating missing tables on the way
(dotted ones when `dotted`). Going through an array of tables goes into its last table;
with `dotted`, only tables that are implicit may be gone through. `f` learns whether the
table at hand is dotted. -/
def editAt {α : Type} (dotted : Bool)
    (f : Bool → List (String × Node) → Except String (List (String × Node) × α)) :
    List String → Bool → List (String × Node) → Except String (List (String × Node) × α)
  | [], here, entries => f here entries
  | p :: ps, _, entries =>
    let replace (n : Node) : List (String × Node) :=
      entries.map fun (k, m) => if k == p then (k, n) else (k, m)
    match entries.lookup p with
    | none => do
      let (sub, a) ← editAt dotted f ps dotted []
      return (entries ++ [(p, .table true dotted sub)], a)
    | some (.leaf _) => .error "key extends a value"
    | some (.tables items) =>
      match items.getLast? with
      | some last => do
        let (sub, a) ← editAt dotted f ps false last
        return (replace (.tables (items.dropLast ++ [sub])), a)
      | none => .error "empty array of tables"
    | some (.table i d sub) =>
      if dotted && !i then .error "duplicate key"
      else do
        let (sub', a) ← editAt dotted f ps d sub
        return (replace (.table i d sub'), a)

/-- A document being read: the tree without the table under the current header, that
table, its header path, and whether the header names an array of tables. -/
structure Doc where
  root : List (String × Node) := []
  current : List (String × Node) := []
  path : List String := []
  isArray : Bool := false

/-- Put the table under the current header into the tree. -/
def Doc.finish (d : Doc) : Except String Doc := do
  match d.path.getLast? with
  | none => return { d with root := d.current, current := [] }
  | some key =>
    let (root, _) ← editAt false (fun _ entries =>
        match entries.lookup key, d.isArray with
        | none, true => .ok (entries ++ [(key, .tables [d.current])], ())
        | some (.tables items), true =>
          .ok (entries.map (fun (k, n) => if k == key then (k, .tables (items ++ [d.current])) else (k, n)), ())
        | none, false => .ok (entries ++ [(key, .table false false d.current)], ())
        | some (.table true _ _), false =>
          .ok (entries.map (fun (k, n) => if k == key then (k, .table false false d.current) else (k, n)), ())
        | _, _ => .error "duplicate key")
      d.path.dropLast false d.root
    return { root, current := [], path := [], isArray := false }

/-- Start the table of a `[header]`: a table that so far was only gone through is taken
over; any other thing at the path is a second definition. -/
def Doc.openTable (d : Doc) (path : List String) : Except String Doc := do
  let d ← d.finish
  let key := path.getLast?.getD ""
  let (root, taken) ← editAt false (fun _ entries =>
      match entries.lookup key with
      | none => .ok (entries, [])
      | some (.table true false sub) => .ok (entries.filter (·.1 != key), sub)
      | some _ => .error "duplicate key")
    path.dropLast false d.root
  return { root, current := taken, path, isArray := false }

/-- Start a table of a `[[header]]`. -/
def Doc.openArrayTable (d : Doc) (path : List String) : Except String Doc := do
  let d ← d.finish
  let key := path.getLast?.getD ""
  let (root, _) ← editAt false (fun _ entries =>
      match entries.lookup key with
      | none => .ok (entries ++ [(key, .tables [])], ())
      | some (.tables _) => .ok (entries, ())
      | some _ => .error "duplicate key")
    path.dropLast false d.root
  return { root, current := [], path, isArray := true }

/-- Put `key = v` under the current header at the dotted path before the key. -/
def Doc.assign (d : Doc) (path : List String) (v : Value) : Except String Doc := do
  let key := path.getLast?.getD ""
  let top := path.dropLast.isEmpty
  let (current, _) ← editAt true (fun here entries =>
      if here == top then .error "duplicate key"
      else if entries.any (·.1 == key) then .error "duplicate key"
      else .ok (entries ++ [(key, .leaf v)], ()))
    path.dropLast false d.current
  return { d with current }

/-- A header: `[` key `]` or `[[` key `]]`. -/
def header : Parse (Bool × List String) := do
  let s ← get
  let isArray := match s with
    | '[' :: '[' :: _ => true
    | _ => false
  set (s.drop (if isArray then 2 else 1))
  let path ← dottedKey (s.length + 1)
  match ← get, isArray with
  | ']' :: ']' :: rest, true => set rest
  | ']' :: rest, false => set rest
  | _, _ => throw "expected end of header"
  return (isArray, path)

/-- Read the lines of a document into `d`. -/
def lines (fuel : Nat) (d : Doc) : Parse Doc :=
  match fuel with
  | 0 => throw "document too long"
  | fuel + 1 => do
    skipWs
    match ← get with
    | [] => return d
    | '#' :: _ => lineEnd; lines fuel d
    | '\n' :: _ | '\r' :: _ => lineEnd; lines fuel d
    | '[' :: _ =>
      let (isArray, path) ← header
      lineEnd
      let d ← lift (if isArray then d.openArrayTable path else d.openTable path)
      lines fuel d
    | _ =>
      let path ← dottedKey ((← get).length + 1)
      match ← get with
      | '=' :: rest => set rest
      | _ => throw "expected ="
      skipWs
      let v ← value 0 ((← get).length + 1)
      lineEnd
      lines fuel (← lift (d.assign path v))

/-- Read a document into its tree of nodes. -/
def parse (text : String) : Except String (List (String × Node)) := do
  let cs := match text.toList with
    | '\uFEFF' :: rest => rest
    | cs => cs
  let (d, _) ← (lines (cs.length + 2) {}).run cs
  let d ← d.finish
  return d.root

/-- Read a document and see it as a JSON object. -/
def parseJson (text : String) : Except String Json := do
  return .obj (nodeMembersJson (← parse text))

end AgentDeck.Toml
