import AgentDeck.Text.Blank
import AgentDeck.Json.Read

/-!
Instants of UTC time and their RFC 3339 text.

An instant is whole seconds since 1970-01-01T00:00:00Z and nanoseconds within the second;
nanoseconds from 10⁹ on stand for a leap second, written as second 60. Years run from
-262143 to 262142.

Writing gives `YYYY-MM-DDTHH:MM:SS`, a fraction of 3, 6 or 9 digits when the nanoseconds
need it (none when they are zero), and `Z`, or `+00:00` in the offset form. A year outside
0 to 9999 gets a sign and at least four digits.

Reading is lenient: `T`, `t` or a space between date and time, blanks around the separators
and before the offset, fields with fewer digits, a year with a sign and any number of digits
(its value within 32-bit signed range), any number of fraction digits (the tenth and later
ignored), and an offset `Z`, `z`, `UTC` in any case, or `±HH:MM` with optional colon.
The offset is taken off to give UTC; a local time that the offset carries past the
representable years matches no instant.
-/

namespace AgentDeck.Time

/-- An instant in UTC. -/
structure Stamp where
  /-- Seconds since 1970-01-01T00:00:00Z. -/
  secs : Int
  /-- Nanoseconds within the second; `10⁹` and above mark a leap second. -/
  nanos : Nat
  deriving DecidableEq, Repr, Inhabited

/-- The instant `ms` milliseconds after `t`. -/
def Stamp.addMs (t : Stamp) (ms : Nat) : Stamp :=
  let nanos := t.nanos + ms % 1000 * 1000000
  ⟨t.secs + (ms / 1000 : Nat) + (nanos / 1000000000 : Nat), nanos % 1000000000⟩

/-- Least and greatest year of an instant. -/
def minYear : Int := -262143
def maxYear : Int := 262142

/-- The year is a leap year of the Gregorian calendar. -/
def isLeapYear (y : Int) : Bool := (y % 4 = 0 ∧ y % 100 ≠ 0) ∨ y % 400 = 0

/-- Days in month `m` of year `y`. -/
def daysInMonth (y : Int) (m : Nat) : Nat :=
  if m = 2 then (if isLeapYear y then 29 else 28)
  else if m = 4 ∨ m = 6 ∨ m = 9 ∨ m = 11 then 30
  else 31

/-- Days from 1970-01-01 to the given civil date. -/
def daysFromCivil (y : Int) (m d : Nat) : Int :=
  let y := if m ≤ 2 then y - 1 else y
  let era := y.fdiv 400
  let yoe := y - era * 400
  let mp : Int := if m > 2 then (m : Int) - 3 else (m : Int) + 9
  let doy := (153 * mp + 2) / 5 + (d : Int) - 1
  let doe := yoe * 365 + yoe / 4 - yoe / 100 + doy
  era * 146097 + doe - 719468

/-- The civil date of a day counted from 1970-01-01: year, month, day. -/
def civilFromDays (z : Int) : Int × Nat × Nat :=
  let z := z + 719468
  let era := z.fdiv 146097
  let doe := z - era * 146097
  let yoe := (doe - doe / 1460 + doe / 36524 - doe / 146096) / 365
  let y := yoe + era * 400
  let doy := doe - (365 * yoe + yoe / 4 - yoe / 100)
  let mp := (5 * doy + 2) / 153
  let d := doy - (153 * mp + 2) / 5 + 1
  let m := if mp < 10 then mp + 3 else mp - 9
  ((if m ≤ 2 then y + 1 else y), m.toNat, d.toNat)

/-- Seconds of the first and the last second of the representable years. -/
def minSecs : Int := daysFromCivil minYear 1 1 * 86400
def maxSecs : Int := daysFromCivil maxYear 12 31 * 86400 + 86399

/-- The instant `secs` seconds after the epoch, if its year is representable. -/
def Stamp.ofUnix (secs : Int) : Option Stamp :=
  if minSecs ≤ secs ∧ secs ≤ maxSecs then some ⟨secs, 0⟩ else none

/-- Decimal digits of `n`, at least `width` of them. -/
def padNat (width n : Nat) : String :=
  let s := toString n
  String.ofList (List.replicate (width - s.length) '0') ++ s

/-- The year as written: four digits from 0 to 9999, else a sign and four digits or more. -/
def yearText (y : Int) : String :=
  if 0 ≤ y ∧ y ≤ 9999 then padNat 4 y.toNat
  else if y < 0 then "-" ++ padNat 4 (-y).toNat
  else "+" ++ padNat 4 y.toNat

/-- The fraction of a second as written: none, 3, 6 or 9 digits. -/
def fractionText (nanos : Nat) : String :=
  if nanos = 0 then ""
  else if nanos % 1000000 = 0 then "." ++ padNat 3 (nanos / 1000000)
  else if nanos % 1000 = 0 then "." ++ padNat 6 (nanos / 1000)
  else "." ++ padNat 9 nanos

/-- Date and time of day, without the offset. -/
def Stamp.localText (t : Stamp) : String :=
  let days := t.secs.fdiv 86400
  let rem := (t.secs - days * 86400).toNat
  let (y, m, d) := civilFromDays days
  let leap := t.nanos ≥ 1000000000
  let sec := rem % 60 + (if leap then 1 else 0)
  let nanos := if leap then t.nanos - 1000000000 else t.nanos
  yearText y ++ "-" ++ padNat 2 m ++ "-" ++ padNat 2 d ++ "T" ++ padNat 2 (rem / 3600) ++ ":" ++
    padNat 2 (rem / 60 % 60) ++ ":" ++ padNat 2 sec ++ fractionText nanos

/-- The instant in RFC 3339 with `Z`. -/
def Stamp.text (t : Stamp) : String := t.localText ++ "Z"

/-- The instant in RFC 3339 with the offset written `+00:00`. -/
def Stamp.offsetText (t : Stamp) : String := t.localText ++ "+00:00"

/-- Why a text is not an instant. -/
inductive StampError where
  | outOfRange
  | impossible
  | notEnough
  | invalid
  | tooShort
  | tooLong
  deriving DecidableEq, Repr

/-- The reason as a sentence. -/
def StampError.text : StampError → String
  | .outOfRange => "input is out of range"
  | .impossible => "no possible date and time matching input"
  | .notEnough => "input is not enough for unique date and time"
  | .invalid => "input contains invalid characters"
  | .tooShort => "premature end of input"
  | .tooLong => "trailing input"

/-- Reading a text from the left. -/
abbrev Scan := StateT (List Char) (Except StampError)

/-- Skip blanks. -/
def blanks : Scan Unit := modify fun s => s.dropWhile AgentDeck.Text.isBlank

/-- An unsigned number of `1 ..= max` ASCII digits. -/
def digits (max : Nat) : Scan Nat := do
  let s ← get
  if s.isEmpty then throw .tooShort
  let ds := (s.take max).takeWhile Char.isDigit
  if ds.isEmpty then throw .invalid
  set (s.drop ds.length)
  return ds.foldl (fun acc c => acc * 10 + (c.toNat - 48)) 0

/-- A literal character. -/
def literal (c : Char) : Scan Unit := do
  match ← get with
  | [] => throw .tooShort
  | d :: rest => if d = c then set rest else throw .invalid

/-- A number that must lie in `lo ..= hi`. -/
def ranged (max lo hi : Nat) : Scan Nat := do
  blanks
  let v ← digits max
  if v < lo ∨ hi < v then throw .outOfRange
  return v

/-- The year: a sign and any number of digits, or up to four digits. A signed year must
lie in 32-bit signed range as soon as it is read. -/
def year : Scan Int := do
  blanks
  let signed (negative : Bool) : Scan Int := do
    let v ← digits ((← get).length)
    let y : Int := if negative then -(v : Int) else v
    if -Int.pow 2 31 ≤ y ∧ y < Int.pow 2 31 then return y else throw .outOfRange
  match ← get with
  | '-' :: rest => do set rest; signed true
  | '+' :: rest => do set rest; signed false
  | _ => do let v ← digits 4; return (v : Int)

/-- The fraction of a second after a point, as nanoseconds. -/
def fraction : Scan Nat := do
  match ← get with
  | '.' :: rest => do
    set rest
    let s ← get
    let ds := (s.take 9).takeWhile Char.isDigit
    if s.isEmpty then throw .tooShort
    if ds.isEmpty then throw .invalid
    let v := ds.foldl (fun acc c => acc * 10 + (c.toNat - 48)) 0
    set ((s.drop ds.length).dropWhile Char.isDigit)
    return v * Nat.pow 10 (9 - ds.length)
  | _ => return 0

/-- Two characters that must be digits. The count is of bytes: one character of two
bytes or more is two that are not digits, a single one-byte character is too short. -/
def digitPair : List Char → Except StampError (Nat × Nat × List Char)
  | d1 :: d2 :: rest =>
    if d1.isDigit && d2.isDigit then .ok (d1.toNat - 48, d2.toNat - 48, rest) else .error .invalid
  | [c] => .error (if c.utf8Size ≥ 2 then .invalid else .tooShort)
  | [] => .error .tooShort

/-- The offset from UTC in seconds. -/
def offset : Scan Int := do
  let s ← get
  match s with
  | c :: rest =>
    if c = 'Z' ∨ c = 'z' then do set rest; return 0
    else
      let lower := (s.take 3).map Char.toLower
      if lower = ['u', 't', 'c'] then do set (s.drop 3); return 0
      else
        let negative ← if c = '+' then pure false
          else if c = '-' ∨ c.toNat = 0x2212 then pure true
          else throw .invalid
        let (h1, h2, t) ← StateT.lift (digitPair rest)
        let t := t.dropWhile fun x => x = ':' || AgentDeck.Text.isBlank x
        let (m1, m2, t) ← StateT.lift (digitPair t)
        if m1 ≥ 6 then throw .outOfRange
        set t
        let v : Int := ((h1 * 10 + h2) * 3600 + (m1 * 10 + m2) * 60 : Nat)
        return (if negative then -v else v)
  | [] => throw .tooShort

/-- Date, separator, time and offset; the rest after them. -/
def fields : Scan (Int × Nat × Nat × Nat × Nat × Nat × Nat × Int) := do
  let y ← year
  blanks; literal '-'
  let mo ← ranged 2 1 12
  blanks; literal '-'
  let d ← ranged 2 1 31
  match ← get with
  | c :: rest => if c = 'T' ∨ c = 't' ∨ c = ' ' then set rest else throw .invalid
  | [] => throw .tooShort
  let h ← ranged 2 0 23
  blanks; literal ':'
  let mi ← ranged 2 0 59
  blanks; literal ':'
  let s ← ranged 2 0 60
  let n ← fraction
  blanks
  let off ← offset
  return (y, mo, d, h, mi, s, n, off)

/-- Read an RFC 3339 date and time. -/
def Stamp.parse (text : String) : Except StampError Stamp := do
  let ((y, mo, d, h, mi, s, n, off), rest) ← fields.run text.toList
  if !(rest.dropWhile AgentDeck.Text.isBlank).isEmpty then throw .tooLong
  if y < minYear ∨ maxYear < y then throw .outOfRange
  if d > daysInMonth y mo then throw .outOfRange
  let (sec, nanos) := if s = 60 then (59, n + 1000000000) else (s, n)
  if off ≥ 86400 ∨ off ≤ -86400 then throw .outOfRange
  let secs := daysFromCivil y mo d * 86400 + ((h * 3600 + mi * 60 + sec : Nat) : Int) - off
  -- the local time is representable; only the offset can carry it out of range
  if secs < minSecs ∨ maxSecs < secs then throw .impossible
  return ⟨secs, nanos⟩

/-- Instants are stored as RFC 3339 text; reading normalizes it to the `Z` form. -/
def Stamp.shape : Json.Shape :=
  .parsed "a formatted date and time string or a unix timestamp" fun s =>
    match Stamp.parse s with
    | .ok t => .ok (.str t.text)
    | .error e => .error e.text

/-- The instant as JSON. -/
def Stamp.toJson (t : Stamp) : Json := .str t.text

/-- The instant of a JSON text. -/
def Stamp.ofJson? (j : Json) : Option Stamp :=
  match j with
  | .str s => match Stamp.parse s with
    | .ok t => some t
    | .error _ => none
  | _ => none

end AgentDeck.Time
