/-!
Double-precision binary floating point, computed exactly.

A finite value is `(-1)^neg * mant * 2^exp` with a mantissa below `2^53` and an exponent
from `-1074` to `971`; a mantissa below `2^52` occurs only at the least exponent, where
the values are subnormal. Every operation of the format is its exact result rounded once:
`ofRatio` rounds a ratio of naturals to the nearest value, a tie going to the even mantissa,
and past the largest finite value gives an infinity. Products, quotients and sums are
formed exactly from the ratios of their operands and rounded by it; not a number comes
only from reading it and goes through every operation. No operation of the
runtime's own floating point is involved, so every result can be computed and reasoned
about in the logic.
-/

namespace AgentDeck

/-- A double-precision value: finite, an infinity, or not a number. -/
inductive Binary64 where
  /-- `(-1)^neg * mant * 2^exp`. -/
  | finite (neg : Bool) (mant : Nat) (exp : Int)
  /-- The infinity of sign `neg`. -/
  | infinite (neg : Bool)
  /-- Not a number. -/
  | nan
  deriving DecidableEq, Repr, Inhabited

namespace Binary64

/-- The exponent of the subnormal values and of zero. -/
def minExp : Int := -1074

/-- The exponent of the largest binade. -/
def maxExp : Int := 971

/-- `2^k ≤ num / den`. -/
def atLeastPow2 (k : Int) (num den : Nat) : Bool :=
  if 0 ≤ k then den * Nat.pow 2 k.toNat ≤ num else den ≤ num * Nat.pow 2 (-k).toNat

/-- The greatest `k` with `2^k ≤ num / den`, for positive `num` and `den`: the difference
of the two binary lengths is that or one more. -/
def floorLog2 (num den : Nat) : Int :=
  let k : Int := (num.log2 : Int) - (den.log2 : Int)
  if atLeastPow2 k num den then k else k - 1

/-- `num / den` rounded to the nearest natural, a tie to the even one. -/
def roundHalfEven (num den : Nat) : Nat :=
  let q := num / den
  let r := num % den
  if 2 * r > den || (2 * r == den && q % 2 == 1) then q + 1 else q

/-- A rounded quotient is within half a unit of the exact one. -/
theorem roundHalfEven_near (num den : Nat) (h : 0 < den) :
    num ≤ roundHalfEven num den * den + den / 2 + den % 2 ∧
      roundHalfEven num den * den ≤ num + den / 2 + den % 2 := by
  have hd := Nat.div_add_mod num den
  have hr := Nat.mod_lt num h
  dsimp only [roundHalfEven]
  split
  · rename_i hc
    simp only [Bool.or_eq_true, decide_eq_true_eq, Bool.and_eq_true, beq_iff_eq] at hc
    rw [Nat.add_mul, Nat.mul_comm (num / den) den]
    omega
  · rename_i hc
    simp only [Bool.or_eq_true, decide_eq_true_eq, Bool.and_eq_true, beq_iff_eq, not_or,
      not_and] at hc
    rw [Nat.mul_comm (num / den) den]
    omega

/-- The value nearest `num / den` with sign `neg`, a tie to the even mantissa; beyond the
largest finite value, the infinity of that sign. Zero keeps its sign. -/
def ofRatio (neg : Bool) (num den : Nat) : Binary64 :=
  if num = 0 ∨ den = 0 then .finite neg 0 minExp
  else
    let e := max (floorLog2 num den - 52) minExp
    let m := if 0 ≤ e then roundHalfEven num (den * Nat.pow 2 e.toNat)
      else roundHalfEven (num * Nat.pow 2 (-e).toNat) den
    let (m, e) := if m = Nat.pow 2 53 then (Nat.pow 2 52, e + 1) else (m, e)
    if e > maxExp then .infinite neg else .finite neg m e

/-- The magnitude `mant * 2^exp` as a ratio of naturals. -/
def ratio (mant : Nat) (exp : Int) : Nat × Nat :=
  if 0 ≤ exp then (mant * Nat.pow 2 exp.toNat, 1) else (mant, Nat.pow 2 (-exp).toNat)

/-- The value nearest a natural number. -/
def ofNat (n : Nat) : Binary64 := ofRatio false n 1

/-- The value nearest `digits * 10^exp`. An exponent past `400` makes a nonzero value
infinite and one that leaves fewer than `-400` places for the digits makes it zero, since
doubles stay within `10^309` and below `10^-324` round to zero; between, the ratio is
rounded exactly. -/
def ofDecimal (neg : Bool) (digits : Nat) (exp : Int) : Binary64 :=
  if digits = 0 then .finite neg 0 minExp
  else if exp > 400 then .infinite neg
  else if ((Nat.toDigits 10 digits).length : Int) + exp < -400 then .finite neg 0 minExp
  else if 0 ≤ exp then ofRatio neg (digits * Nat.pow 10 exp.toNat) 1
  else ofRatio neg digits (Nat.pow 10 (-exp).toNat)

/-- Positive zero. -/
def zero : Binary64 := .finite false 0 minExp

/-- The value with its sign turned. -/
def negate : Binary64 → Binary64
  | .finite s m e => .finite (!s) m e
  | .infinite s => .infinite (!s)
  | .nan => .nan

/-- The value is an infinity. -/
def isInfinite : Binary64 → Bool
  | .infinite _ => true
  | _ => false

/-- The value is zero, of either sign. -/
def isZero : Binary64 → Bool
  | .finite _ m _ => m == 0
  | _ => false

/-- The rounded product. An infinity times anything is an infinity. -/
def mul : Binary64 → Binary64 → Binary64
  | .finite s m e, .finite t n f =>
    let (a, b) := ratio (m * n) (e + f)
    ofRatio (s != t) a b
  | .infinite s, .finite t _ _ | .finite s _ _, .infinite t | .infinite s, .infinite t =>
    .infinite (s != t)
  | .nan, _ | _, .nan => .nan

/-- The rounded quotient. A division by zero or of an infinity gives an infinity. -/
def div : Binary64 → Binary64 → Binary64
  | .finite s m e, .finite t n f =>
    if n = 0 then .infinite (s != t)
    else
      let (a, b) := ratio m e
      let (c, d) := ratio n f
      ofRatio (s != t) (a * d) (b * c)
  | .finite s _ _, .infinite t => .finite (s != t) 0 minExp
  | .infinite s, .finite t _ _ | .infinite s, .infinite t => .infinite (s != t)
  | .nan, _ | _, .nan => .nan

/-- The exact value of a finite value as a signed numerator over a positive denominator. -/
def signedRatio (s : Bool) (m : Nat) (e : Int) : Int × Nat :=
  let (a, b) := ratio m e
  (if s then -(a : Int) else a, b)

/-- The rounded sum. Exact zeros of opposite signs add to positive zero; an infinity
absorbs a finite value. -/
def add : Binary64 → Binary64 → Binary64
  | .finite s m e, .finite t n f =>
    let (a, b) := signedRatio s m e
    let (c, d) := signedRatio t n f
    let num := a * d + c * b
    if num = 0 then .finite (s && t) 0 minExp
    else ofRatio (num < 0) num.natAbs (b * d)
  | .nan, _ | _, .nan => .nan
  | .infinite s, _ => .infinite s
  | .finite _ _ _, .infinite t => .infinite t

/-- The order of two values; zeros of either sign are equal, and not a number is
unordered. -/
def compare? : Binary64 → Binary64 → Option Ordering
  | .finite s m e, .finite t n f =>
    let (a, b) := signedRatio s m e
    let (c, d) := signedRatio t n f
    some (Ord.compare (a * d) (c * b))
  | .infinite s, .infinite t => some (if s == t then .eq else if s then .lt else .gt)
  | .infinite s, .finite _ _ _ => some (if s then .lt else .gt)
  | .finite _ _ _, .infinite t => some (if t then .gt else .lt)
  | .nan, _ | _, .nan => none

/-- `x` is greater than `y`. -/
def gt (x y : Binary64) : Bool := compare? x y == some .gt

instance : Mul Binary64 := ⟨mul⟩
instance : Div Binary64 := ⟨div⟩
instance : Add Binary64 := ⟨add⟩

end Binary64

end AgentDeck
