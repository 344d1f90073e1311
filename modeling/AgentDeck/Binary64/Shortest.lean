import AgentDeck.Binary64.Basic

/-!
The shortest decimal text of a double.

A finite positive value `m * 2^e` stands for the reals that round to it: those from halfway
to the value below to halfway to the value above, the ends included when `m` is even,
since a tie rounds to the even mantissa. Below a power of two the value below is half as far
away, which narrows that side. A decimal reads back when it lies in that interval
(`readsBack`). `shortest` tries grids of one, two, … significant digits: on each, the two
grid points around the value are the only candidates, since any grid point in the interval
lies no farther out than they do. The first grid with a candidate that reads back wins; of
two such the nearer to the value is taken, and an exact tie goes as the format says.

`Style` holds a format's decisions on laying the digits out: the exponents of the
leading digit written positionally, `.0` after an integer, and the sign of a positive
exponent. `render` writes a value by them.
-/

namespace AgentDeck.Binary64

/-- The decimal `digits * 10^exp`. -/
structure Decimal where
  digits : Nat
  exp : Int
  deriving DecidableEq, Repr

/-- Which of two equally near candidates a format keeps. -/
inductive Tie where
  /-- The one with an even last digit. -/
  | toEven
  /-- The larger one. -/
  | up
  deriving DecidableEq, Repr

/-- The order of `a * 10^i` and `n * 2^j`, compared exactly. -/
def cmpScaled (a : Nat) (i : Int) (n : Nat) (j : Int) : Ordering :=
  Ord.compare (a * Nat.pow 10 i.toNat * Nat.pow 2 (-j).toNat)
    (n * Nat.pow 2 j.toNat * Nat.pow 10 (-i).toNat)

/-- The decimal `d` lies among the reals that round to the positive value `m * 2^e`. -/
def readsBack (m : Nat) (e : Int) (d : Decimal) : Bool :=
  let narrow := m == Nat.pow 2 52 && e > minExp
  let lo := if narrow then 4 * m - 1 else 4 * m - 2
  let hi := 4 * m + 2
  let incl := m % 2 == 0
  let cl := cmpScaled d.digits d.exp lo (e - 2)
  let ch := cmpScaled d.digits d.exp hi (e - 2)
  (cl == .gt || (incl && cl == .eq)) && (ch == .lt || (incl && ch == .eq))

/-- `m * 2^e < 10^k`. -/
def belowPow10 (m : Nat) (e : Int) (k : Int) : Bool := cmpScaled 1 k m e == .gt

/-- The least `k` with `m * 2^e < 10^k`, for positive `m`: an estimate from the binary
length, corrected step by step. -/
def decimalScale (m : Nat) (e : Int) : Int :=
  let bits : Int := (m.log2 : Int) + e
  let guess : Int := (bits * 30103).fdiv 100000 + 1
  let rec up (k : Int) : Nat → Int
    | 0 => k
    | fuel + 1 => if belowPow10 m e k then k else up (k + 1) fuel
  let rec down (k : Int) : Nat → Int
    | 0 => k
    | fuel + 1 => if belowPow10 m e (k - 1) then down (k - 1) fuel else k
  down (up guess 8) 8

/-- `d` with the trailing zeros of its digits moved into the exponent. -/
def Decimal.strip (d : Decimal) : Decimal :=
  let rec go (digits : Nat) (exp : Int) : Nat → Decimal
    | 0 => ⟨digits, exp⟩
    | fuel + 1 =>
      if digits ≠ 0 ∧ digits % 10 = 0 then go (digits / 10) (exp + 1) fuel else ⟨digits, exp⟩
  go d.digits d.exp 400

/-- Stripping zeros keeps the value. -/
theorem strip_go_value (digits : Nat) (exp : Int) (fuel : Nat) (h : 0 ≤ exp) :
    let d := Decimal.strip.go digits exp fuel
    0 ≤ d.exp ∧ d.digits * Nat.pow 10 d.exp.toNat = digits * Nat.pow 10 exp.toNat := by
  simp only [Nat.pow_eq]
  induction fuel generalizing digits exp with
  | zero => simp [Decimal.strip.go, h]
  | succ fuel ih =>
    simp only [Decimal.strip.go]
    split
    · rename_i hz
      have ⟨h1, h2⟩ := ih (digits / 10) (exp + 1) (by omega)
      refine ⟨h1, ?_⟩
      rw [h2, show (exp + 1).toNat = exp.toNat + 1 by omega, Nat.pow_succ]
      have := Nat.div_mul_cancel (Nat.dvd_of_mod_eq_zero hz.2)
      calc digits / 10 * (10 ^ exp.toNat * 10) = digits / 10 * 10 * 10 ^ exp.toNat := by
            rw [Nat.mul_comm (10 ^ exp.toNat) 10, ← Nat.mul_assoc]
        _ = digits * 10 ^ exp.toNat := by rw [this]
    · exact ⟨h, rfl⟩

/-- The candidate kept on the grid `10^g` when it has `a` and `a + 1` to choose from. -/
def pick (tie : Tie) (m : Nat) (e : Int) (a : Nat) (g : Int) : Option Decimal :=
  let lower : Decimal := ⟨a, g⟩
  let upper : Decimal := ⟨a + 1, g⟩
  match readsBack m e lower, readsBack m e upper with
  | false, false => none
  | true, false => some lower
  | false, true => some upper
  | true, true =>
    -- twice the value against the sum of the two candidates
    match cmpScaled (2 * a + 1) g (2 * m) e with
    | .gt => some lower
    | .lt => some upper
    | .eq =>
      match tie with
      | .toEven => if a % 2 = 0 then some lower else some upper
      | .up => some upper

/-- The grid point at or below `m * 2^e` on the grid `10^g`. -/
def floorOnGrid (m : Nat) (e : Int) (g : Int) : Nat :=
  let (num, den) := ratio m e
  if 0 ≤ g then num / (den * Nat.pow 10 g.toNat) else num * Nat.pow 10 (-g).toNat / den

/-- The fewest significant digits that read back as the positive value `m * 2^e`, with
trailing zeros stripped. Seventeen digits always suffice; the exact value is the answer
past them. -/
def shortest (tie : Tie) (m : Nat) (e : Int) : Decimal :=
  let k := decimalScale m e
  let found := (List.range 17).findSome? fun i =>
    let g := k - ((i + 1 : Nat) : Int)
    pick tie m e (floorOnGrid m e g) g
  match found with
  | some d => d.strip
  | none =>
    let (num, den) := ratio m e
    -- the exact value: a power of two below one has as many decimals as its exponent
    let places := (-e).toNat
    (Decimal.strip ⟨num * Nat.pow 10 places / den, -(places : Int)⟩)

/-- A format's decisions on laying out the digits of a double. -/
structure Style where
  /-- Leading-digit exponents `x` with `plainFrom ≤ x < plainBelow` are written
  positionally, the others as digits and an exponent. -/
  plainFrom : Int
  plainBelow : Int
  /-- An integer written positionally ends in `.0`. -/
  pointZero : Bool
  /-- A positive exponent is written with `+`. -/
  expPlus : Bool
  /-- The candidate kept on an exact tie. -/
  tie : Tie
  deriving Repr

/-- The digits of a natural number. -/
def digitText (n : Nat) : String := String.ofList (Nat.toDigits 10 n)

/-- The positive decimal `d` laid out by `fmt`. -/
def layout (fmt : Style) (d : Decimal) : String :=
  let ds := digitText d.digits
  let n := ds.length
  -- the exponent of the leading digit
  let lead : Int := d.exp + n - 1
  if fmt.plainFrom ≤ lead ∧ lead < fmt.plainBelow then
    if 0 ≤ d.exp then
      ds ++ String.ofList (List.replicate d.exp.toNat '0') ++ (if fmt.pointZero then ".0" else "")
    else if 0 ≤ lead then
      let whole := (lead + 1).toNat
      String.ofList (ds.toList.take whole) ++ "." ++ String.ofList (ds.toList.drop whole)
    else
      "0." ++ String.ofList (List.replicate (-lead - 1).toNat '0') ++ ds
  else
    let mant := match ds.toList with
      | c :: rest => if rest.isEmpty then String.singleton c else String.ofList (c :: '.' :: rest)
      | [] => "0"
    let sign := if lead < 0 then "-" else if fmt.expPlus then "+" else ""
    mant ++ "e" ++ sign ++ digitText lead.natAbs

/-- A value written by `fmt`; an infinity as `inf`, not a number as `NaN`. -/
def render (fmt : Style) : Binary64 → String
  | .finite s m e =>
    let body := if m = 0 then layout fmt ⟨0, 0⟩ else layout fmt (shortest fmt.tie m e)
    (if s then "-" else "") ++ body
  | .infinite s => (if s then "-" else "") ++ "inf"
  | .nan => "NaN"

end AgentDeck.Binary64
