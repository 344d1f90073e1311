import AgentDeck.Binary64.Basic

/-!
JSON values.

A number keeps the distinction the readers of this library make: an unsigned integer that
fits in 64 bits, a negative integer that fits in 64 bits, or a double. An object is a list of members in the order they are to be
written: reading a free-form document gives objects with sorted, distinct keys, while
encoders of records list the fields in declaration order.
-/

namespace AgentDeck

/-- A JSON number. -/
inductive Number where
  /-- An integer in `0 ..= 2^64 - 1`. -/
  | nat (n : Nat)
  /-- The integer `-n`, for `1 ≤ n ≤ 2^63`. -/
  | neg (n : Nat)
  /-- Any other number, as a double. -/
  | float (x : Binary64)
  deriving DecidableEq, Repr, Inhabited

/-- A JSON value. -/
inductive Json where
  | null
  | bool (b : Bool)
  | num (n : Number)
  | str (s : String)
  | arr (items : List Json)
  | obj (members : List (String × Json))
  deriving Repr, Inhabited

namespace Json

/-- The largest unsigned 64-bit integer. -/
def u64Max : Nat := Nat.pow 2 64 - 1

/-- An integer as a JSON number. -/
def ofInt (i : Int) : Json :=
  if 0 ≤ i then .num (.nat i.toNat) else .num (.neg (-i).toNat)

/-- A natural number as a JSON number. -/
def ofNat (n : Nat) : Json := .num (.nat n)

/-- An optional value, `null` when absent. -/
def ofOption {α : Type} (f : α → Json) : Option α → Json
  | some a => f a
  | none => .null

/-- A member of an object. -/
def field? (j : Json) (key : String) : Option Json :=
  match j with
  | .obj ms => ms.lookup key
  | _ => none

/-- The text of a string value. -/
def asString? : Json → Option String
  | .str s => some s
  | _ => none

/-- The value of a boolean. -/
def asBool? : Json → Option Bool
  | .bool b => some b
  | _ => none

/-- The value of an unsigned integer. -/
def asNat? : Json → Option Nat
  | .num (.nat n) => some n
  | _ => none

/-- The value of an integer. -/
def asInt? : Json → Option Int
  | .num (.nat n) => some n
  | .num (.neg n) => some (-(n : Int))
  | _ => none

/-- The items of an array. -/
def asArray? : Json → Option (List Json)
  | .arr xs => some xs
  | _ => none

/-- The members of an object. -/
def asObject? : Json → Option (List (String × Json))
  | .obj ms => some ms
  | _ => none

/-- `null` is the absent value. -/
def isNull : Json → Bool
  | .null => true
  | _ => false

/-- Members with sorted, distinct keys; of two members with one key the later one stays. -/
def sortMembers (ms : List (String × Json)) : List (String × Json) :=
  let kept := ms.reverse.foldl
    (fun acc m => if acc.any (·.1 == m.1) then acc else m :: acc) []
  kept.mergeSort (fun a b => decide (a.1 ≤ b.1))

/-- An object member set or replaced, keeping sorted keys. -/
def setMember (ms : List (String × Json)) (key : String) (v : Json) : List (String × Json) :=
  sortMembers (ms ++ [(key, v)])

end Json

end AgentDeck
