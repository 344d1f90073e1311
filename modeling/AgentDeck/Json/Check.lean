import AgentDeck.Json.Read

/-!
Checking a JSON value against a shape.

A value that is already in memory is checked member by member; every fault is a mismatch,
since no text is involved. The result is the value in the form reading a document gives:
record fields completed by their defaults and put in declaration order. A record may also be
given as an array of its fields in declaration order: missing elements take the defaults,
and elements past the last field are ignored.
-/

namespace AgentDeck.Json

/-- How a value is named in the message of a mismatch. -/
def describeValue : Json → String
  | .null => "null"
  | .bool b => "boolean `" ++ (if b then "true" else "false") ++ "`"
  | .num n => describeNumber n
  | .str s => "string " ++ debugQuote s
  | .arr _ => "sequence"
  | .obj _ => "map"

/-- Number of nodes of a value. -/
def weight : Json → Nat
  | .arr xs => 1 + (xs.attach.map fun ⟨x, _⟩ => weight x).foldr (· + ·) 0
  | .obj ms => 1 + (ms.attach.map fun ⟨m, _⟩ => weight m.2).foldr (· + ·) 0
  | _ => 1
termination_by j => sizeOf j
decreasing_by
  all_goals simp_wf
  · have := List.sizeOf_lt_of_mem ‹_›; omega
  · have h := List.sizeOf_lt_of_mem ‹_›
    have : sizeOf m.2 < sizeOf m := by cases m; simp only [Prod.mk.sizeOf_spec]; omega
    omega

/-- `v` checked against shape `s`, within `fuel` steps. -/
def checkWithin (fuel : Nat) (s : Shape) (v : Json) : Except ReadError Json :=
  match fuel with
  | 0 => .error { category := .mismatch, message := "recursion limit exceeded" }
  | fuel + 1 =>
  let check := checkWithin fuel
  match s, v with
  | .any, v => .ok v
  | .opt _, .null => .ok .null
  | .opt inner, v => check inner v
  | .text _, .str t => .ok (.str t)
  | .parsed _ conv, .str t =>
    match conv t with
    | .ok r => .ok r
    | .error m => .error { category := .mismatch, message := m }
  | .flag, .bool b => .ok (.bool b)
  | .unsigned _ _, .num n | .signed _ _ _, .num n =>
    match fitNumber s n with
    | .ok r => .ok r
    | .error m => .error { category := .mismatch, message := m }
  | .list item, .arr xs => do
    let ys ← xs.mapM fun x => check item x
    return .arr ys
  | .tags names, .str t =>
    if names.contains t then .ok (.str t)
    else .error { category := .mismatch, message := unknownName t names }
  | .record _ fields, .obj ms => do
    let got ← ms.filterMapM fun m =>
      match fields.find? (·.1 == m.1) with
      | some (_, fs, _) => do
        let r ← check fs m.2
        return some (m.1, r)
      | none => return none
    match completeFields fields got with
    | .ok r => .ok r
    | .error m => .error { category := .mismatch, message := m }
  | .record name fields, .arr xs => do
    let ms ← fields.zipIdx.mapM fun ((k, fs, dflt), i) =>
      match xs[i]?, dflt with
      | some x, _ => do
        let r ← check fs x
        return (k, r)
      | none, some d => .ok (k, d)
      | none, none =>
        let msg := "invalid length " ++ toString xs.length ++ ", expected struct " ++ name ++
          " with " ++ toString fields.length ++ " elements"
        .error { category := .mismatch, message := msg }
    return .obj ms
  | s, v => .error { category := .mismatch, message := wrongType (describeValue v) s }

/-- `v` checked against shape `s`. -/
def check (s : Shape) (v : Json) : Except ReadError Json := checkWithin (2 * weight v + 8) s v

end AgentDeck.Json
