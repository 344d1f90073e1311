/-!
Sets of code points as sorted ranges.

A table of character data is an array of inclusive ranges `(lo, hi)`, sorted and disjoint.
`inRanges` looks a code point up by halving the part of the table that can still hold it.
-/

namespace AgentDeck.Text

/-- `n` lies in one of the sorted, disjoint ranges of `rs` between positions `lo` and `hi`. -/
def inRangesBetween (rs : Array (Nat × Nat)) (n lo hi : Nat) : Bool :=
  if h : lo < hi then
    let mid := (lo + hi) / 2
    let r := rs.getD mid (0, 0)
    if n < r.1 then inRangesBetween rs n lo mid
    else if r.2 < n then inRangesBetween rs n (mid + 1) hi
    else true
  else false
termination_by hi - lo

/-- `n` lies in one of the sorted, disjoint ranges of `rs`. -/
def inRanges (rs : Array (Nat × Nat)) (n : Nat) : Bool := inRangesBetween rs n 0 rs.size

/-- Nothing lies in an empty part of a table. -/
theorem inRangesBetween_of_le (rs : Array (Nat × Nat)) (n : Nat) {lo hi : Nat} (h : hi ≤ lo) :
    inRangesBetween rs n lo hi = false := by
  rw [inRangesBetween]
  simp only [show ¬lo < hi by omega, dite_false]

end AgentDeck.Text
