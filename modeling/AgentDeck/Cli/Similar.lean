import AgentDeck.Binary64.Basic

/-!
How alike two names are, for suggesting the name a mistyped one was meant to be.

The measure is Jaro's similarity over characters: characters of the two names match when
they are equal and no further apart than half the longer length less one, each character
matching at most once and the first free partner being taken; `t` is half the number of
matched pairs that stand in a different order. For `m` matches between names of lengths `a`
and `b` the similarity is `(m / a + m / b + (m - t) / m) / 3`, and `0` without matches. It
is computed in doubles, each quotient and sum rounded in turn, and compared with the double
nearest `0.7`: a similarity of exactly seven tenths can round to either side of it.
-/

namespace AgentDeck.Cli

/-- The partner positions in `b` of the characters of `a`, in order of `a`, and which
positions of `b` are taken. -/
def matchPositions (a b : List Char) : List (Option Nat) × List Bool :=
  let range := max a.length b.length / 2 - 1
  a.zipIdx.foldl (fun (acc : List (Option Nat) × List Bool) (c, i) =>
    let lo := i - range
    let hi := min b.length (i + range + 1)
    let free := (List.range hi).find? fun j =>
      lo ≤ j && b[j]? == some c && acc.2[j]? == some false
    match free with
    | some j => (acc.1 ++ [some j], acc.2.set j true)
    | none => (acc.1 ++ [none], acc.2)) ([], List.replicate b.length false)

/-- Jaro's similarity of two names. -/
def jaro (x y : String) : Binary64 :=
  let a := x.toList
  let b := y.toList
  if a.isEmpty && b.isEmpty then Binary64.ofNat 1
  else if a.isEmpty || b.isEmpty then Binary64.zero
  else
    let (partners, taken) := matchPositions a b
    let fromA := (a.zip partners).filterMap fun (c, p) => p.map fun _ => c
    let fromB := (b.zip taken).filterMap fun (c, t) => if t then some c else none
    let m := fromA.length
    if m = 0 then Binary64.zero
    else
      let t := ((fromA.zip fromB).filter fun (p, q) => p != q).length / 2
      let d := Binary64.ofNat
      (d m / d a.length + d m / d b.length + d (m - t) / d m) / d 3

/-- The double nearest seven tenths, the least similarity that is not enough. -/
def enoughAlike : Binary64 := Binary64.ofDecimal false 7 (-1)

/-- The names among `candidates` alike enough to `name` (more than `enoughAlike`), least
alike first; equally alike names keep their order. -/
def similarNames (name : String) (candidates : List String) : List String :=
  let scored := (candidates.map fun c => (jaro name c, c)).filter fun (l, _) => l.gt enoughAlike
  (scored.mergeSort fun p q => !(p.1.gt q.1)).map (·.2)

end AgentDeck.Cli
