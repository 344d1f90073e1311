import AgentDeck.Json.Value

/-!
TOML documents as trees.

A document is a table of nodes. A node is a plain value, a table, or an array of tables.
Tables remember how they came to be, since that decides what a later line may add to them:
a table named by a header is explicit; one that only exists because a header or a dotted
key passed through it is implicit; one made by dotted keys is dotted as well. Inline tables,
written in braces, are values and take no additions.

For reading into records a document is seen as JSON (`Node.toJson`): strings, integers,
booleans, floats, arrays and tables map to their JSON kinds, and a date or
time becomes an object with one reserved key, which fits no field of a record but is taken
for an empty one.
-/

namespace AgentDeck.Toml

/-- A value written after `=` or inside an array. -/
inductive Value where
  | str (s : String)
  | int (i : Int)
  | float (x : Binary64)
  | bool (b : Bool)
  | datetime (text : String)
  | array (items : List Value)
  /-- A table in braces; `dotted` when a dotted key made it. -/
  | inline (dotted : Bool) (entries : List (String × Value))
  deriving Repr, Inhabited

/-- A member of a table. -/
inductive Node where
  | leaf (v : Value)
  /-- A table: implicit when only passed through, dotted when dotted keys made it. -/
  | table (implicit dotted : Bool) (entries : List (String × Node))
  /-- An array of tables, one entry list per `[[header]]`. -/
  | tables (items : List (List (String × Node)))
  deriving Repr, Inhabited

/-- The key under which a date or time is seen as JSON. -/
def datetimeKey : String := "$__toml_private_datetime"

mutual

/-- The value seen as JSON. -/
def Value.toJson : Value → Json
  | .str s => .str s
  | .int i => Json.ofInt i
  | .float x => .num (.float x)
  | .bool b => .bool b
  | .datetime t => .obj [(datetimeKey, .str t)]
  | .array items => .arr (valuesJson items)
  | .inline _ entries => .obj (valueMembersJson entries)

/-- Values seen as JSON. -/
def valuesJson : List Value → List Json
  | [] => []
  | v :: vs => v.toJson :: valuesJson vs

/-- Members seen as JSON. -/
def valueMembersJson : List (String × Value) → List (String × Json)
  | [] => []
  | (k, v) :: rest => (k, v.toJson) :: valueMembersJson rest

end

mutual

/-- The node seen as JSON. -/
def Node.toJson : Node → Json
  | .leaf v => v.toJson
  | .table _ _ entries => .obj (nodeMembersJson entries)
  | .tables items => .arr (tablesJson items)

/-- Members seen as JSON. -/
def nodeMembersJson : List (String × Node) → List (String × Json)
  | [] => []
  | (k, n) :: rest => (k, n.toJson) :: nodeMembersJson rest

/-- Tables seen as JSON objects. -/
def tablesJson : List (List (String × Node)) → List Json
  | [] => []
  | t :: ts => .obj (nodeMembersJson t) :: tablesJson ts

end

end AgentDeck.Toml
