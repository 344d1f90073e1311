import AgentDeck.Json.Value

/-!
The value of a written JSON number.

A number is read as a significand below `2^64` and a decimal exponent. Digits join the
significand while it stays below `2^64`; once one would not fit, every later digit of the
integer part raises the exponent by one, and digits of the fraction are dropped. A number
with neither fraction nor exponent whose significand fits is an integer, except `-0` and
negatives below `-2^63`. Every other number is a double computed in steps, each rounded to
the nearest double: the significand, then its product with or quotient by the double
nearest `10^|e|`. An exponent past `308` in size is taken in steps of `10^308`, and a zero
ends them. A product past the largest double is out of range, and so is an exponent whose
size passes `2^31 - 1` after a nonzero significand when it is positive; otherwise such an
exponent makes the number zero.
-/

namespace AgentDeck.Json

open Binary64

/-- The parts of a written number: its sign, the digits before the point, those after it
if there is a point, and the exponent's sign and digits if there is an exponent. -/
structure Numeral where
  negative : Bool
  whole : List Nat
  fraction : Option (List Nat)
  exponent : Option (Bool × List Nat)
  deriving Repr

/-- The largest signed 32-bit integer, the bound of an exponent. -/
def i32Max : Nat := Nat.pow 2 31 - 1

/-- `x` held between the least and the largest signed 32-bit integer. -/
def clampI32 (x : Int) : Int := max (-Int.pow 2 31) (min (Int.pow 2 31 - 1) x)

/-- Digits joined to the significand `sig` while it stays below `2^64`; the significand
and the digits left over. -/
def absorb (sig : Nat) : List Nat → Nat × List Nat
  | [] => (sig, [])
  | d :: ds => if sig * 10 + d ≤ u64Max then absorb (sig * 10 + d) ds else (sig, d :: ds)

/-- The value of an exponent's digits while it stays within `2^31 - 1`; past that, the
number of digits after the one that passed it. -/
def exponentValue (acc : Nat) : List Nat → Except Nat Nat
  | [] => .ok acc
  | d :: ds => if acc * 10 + d ≤ i32Max then exponentValue (acc * 10 + d) ds else .error ds.length

/-- The double nearest `10^k`. -/
def pow10 (k : Nat) : Binary64 := Binary64.ofNat (Nat.pow 10 k)

/-- `f` scaled by `10^e` in rounded steps: one product or quotient when `|e| ≤ 308`,
otherwise a quotient by `10^308` first. `none` when a product passes the largest double or
a positive exponent is too large. Each quotient by `10^308` leaves a value below `10^-289`,
so three steps reach a zero or an exponent of size at most `308`. -/
def scaleByPow10 (f : Binary64) (e : Int) : Nat → Option Binary64
  | 0 => some f
  | fuel + 1 =>
    if e.natAbs ≤ 308 then
      if 0 ≤ e then
        let g := f * pow10 e.natAbs
        if g.isInfinite then none else some g
      else some (f / pow10 e.natAbs)
    else if f.isZero then some f
    else if 0 ≤ e then none
    else scaleByPow10 (f / pow10 308) (e + 308) fuel

/-- The number a numeral is read as; a fault when it is out of range, with the number of
its octets not yet read at that point. -/
def Numeral.value (p : Numeral) : Except Nat Number :=
  let (sig, intLeft) := absorb 0 p.whole
  let (sig, e) : Nat × Int := match p.fraction with
    | none => (sig, intLeft.length)
    | some fs =>
      let (s, left) := absorb sig fs
      (s, (intLeft.length : Int) - (fs.length - left.length : Nat))
  let signed (f : Binary64) : Binary64 := if p.negative then f.negate else f
  let scaled (e : Int) : Except Nat Number :=
    match scaleByPow10 (Binary64.ofNat sig) e 3 with
    | some f => .ok (.float (signed f))
    | none => .error 0
  match p.exponent with
  | some (expNeg, ds) =>
    match exponentValue 0 ds with
    | .ok v => scaled (clampI32 (if expNeg then e - v else e + v))
    | .error unread =>
      if sig ≠ 0 ∧ !expNeg then .error unread else .ok (.float (signed Binary64.zero))
  | none =>
    if p.fraction.isNone ∧ intLeft.isEmpty then
      if !p.negative then .ok (.nat sig)
      else if sig = 0 ∨ Nat.pow 2 63 < sig then .ok (.float (signed (Binary64.ofNat sig)))
      else .ok (.neg sig)
    else scaled e

end AgentDeck.Json
