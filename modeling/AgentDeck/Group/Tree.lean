import AgentDeck.Session.Basic

/-!
Groups of sessions, named by slash-separated paths (`work/frontend`), with a fold-out flag
and a display order.

The tree is a table of groups keyed by path, and carries the proof that no two share one.
Creating a group creates its missing ancestors; deleting one leaves its children in place.
Groups are listed by display order, then by path. Membership is derived: each group lists the sessions whose group path is its
own, by title and then id (`syncSessions`), and a group that a session names but the table
lacks is created on the way.
-/

namespace AgentDeck

/-- A group of sessions. -/
structure Group where
  name : String
  path : String
  expanded : Bool := true
  order : Int := 0
  /-- Member session ids, by title then id; derived, never stored. -/
  sessions : List String := []
  deriving DecidableEq, Repr, Inhabited

namespace Group

/-- A new, unfolded group at `path`, named after its last piece. -/
def ofPath (path : String) : Group :=
  let name := match Text.splitLast '/' path.toList with
    | some (_, last) => String.ofList last
    | none => path
  { name, path }

/-- Display order: by `order`, then by path. -/
def before (a b : Group) : Bool := a.order < b.order || (a.order == b.order && !(b.path < a.path))

/-- Stored form: `order` is a 32-bit integer that defaults to 0; member lists are not read. -/
def shape : Json.Shape :=
  .record "GroupData"
    [("name", .text "a string", none), ("path", .text "a string", none),
     ("expanded", .flag, none), ("order", .signed "i32" (-2147483648) 2147483647, some (.ofNat 0))]

/-- The group as stored, without members. -/
def storedJson (g : Group) : Json :=
  .obj [("name", .str g.name), ("path", .str g.path), ("expanded", .bool g.expanded),
    ("order", .ofInt g.order)]

/-- The group with its members. -/
def toJson (g : Group) : Json :=
  .obj [("name", .str g.name), ("path", .str g.path), ("expanded", .bool g.expanded),
    ("order", .ofInt g.order), ("sessions", .arr (g.sessions.map .str))]

/-- The group stored in a JSON object of its shape. -/
def ofJson? (j : Json) : Option Group := do
  let name ← (j.field? "name") >>= Json.asString?
  let path ← (j.field? "path") >>= Json.asString?
  let expanded ← (j.field? "expanded") >>= Json.asBool?
  let order ← (j.field? "order") >>= Json.asInt?
  return { name, path, expanded, order }

end Group

/-- Replace the first entry with `x`'s key by `x`, or append `x`. -/
def upsert {α κ : Type} [DecidableEq κ] (key : α → κ) (x : α) : List α → List α
  | [] => [x]
  | y :: ys => if key y = key x then x :: ys else y :: upsert key x ys

section Keys

variable {α κ : Type} [DecidableEq κ] (key : α → κ) (x : α)

theorem mem_keys_upsert (l : List α) (k : κ) :
    k ∈ (upsert key x l).map key ↔ k ∈ l.map key ∨ k = key x := by
  induction l with
  | nil => simp [upsert]
  | cons y ys ih =>
    unfold upsert
    split
    · next hy =>
      simp only [List.map_cons, List.mem_cons, hy]
      grind
    · simp only [List.map_cons, List.mem_cons, ih]
      grind

/-- Upserting an entry with a new key appends it. -/
theorem upsert_of_not_mem {l : List α} (h : key x ∉ l.map key) : upsert key x l = l ++ [x] := by
  induction l with
  | nil => rfl
  | cons y ys ih =>
    simp only [List.map_cons, List.mem_cons, not_or] at h
    rw [upsert, if_neg (Ne.symm h.1), ih h.2, List.cons_append]

/-- Upserting keeps the keys apart: it replaces the entry with `x`'s key, or adds the key. -/
theorem nodup_keys_upsert (l : List α) (h : (l.map key).Nodup) : ((upsert key x l).map key).Nodup := by
  induction l with
  | nil => simp [upsert]
  | cons y ys ih =>
    rw [List.map_cons, List.nodup_cons] at h
    unfold upsert
    split
    · next hy =>
      rw [List.map_cons, List.nodup_cons, ← hy]
      exact h
    · next hy =>
      rw [List.map_cons, List.nodup_cons]
      refine ⟨fun hin => ?_, ih h.2⟩
      rcases (mem_keys_upsert key x ys _).mp hin with he | he
      · exact h.1 he
      · exact hy he

end Keys

/-- Changing groups without moving them keeps their paths apart. -/
theorem nodup_paths_map {gs : List Group} {f : Group → Group} (hf : ∀ g, (f g).path = g.path)
    (h : (gs.map (·.path)).Nodup) : ((gs.map f).map (·.path)).Nodup := by
  have hpaths : (gs.map f).map (·.path) = gs.map (·.path) := by
    rw [List.map_map]
    exact List.map_congr_left fun g _ => hf g
  rw [hpaths]
  exact h

/-- The groups, keyed by path: no two share a path. -/
@[ext] structure GroupTree where
  groups : List Group
  nodup : (groups.map (·.path)).Nodup

/-- The table with no group. -/
instance : EmptyCollection GroupTree := ⟨⟨[], List.nodup_nil⟩⟩

instance : Inhabited GroupTree := ⟨{}⟩

namespace GroupTree

@[simp] theorem groups_empty : (∅ : GroupTree).groups = [] := rfl

/-- The group at `path`. -/
def get? (t : GroupTree) (path : String) : Option Group := t.groups.find? (·.path == path)

/-- Put `g` in the table, replacing the group at its path. -/
def put (t : GroupTree) (g : Group) : GroupTree :=
  ⟨upsert Group.path g t.groups, nodup_keys_upsert _ _ _ t.nodup⟩

theorem groups_put_of_not_mem {t : GroupTree} {g : Group} (h : g.path ∉ t.groups.map (·.path)) :
    (t.put g).groups = t.groups ++ [g] :=
  upsert_of_not_mem _ _ h

/-- A table of the given groups; of two with one path the later wins. -/
def ofGroups (gs : List Group) : GroupTree := gs.foldl put {}

/-- `path`, its parent, the parent's parent, and so on: each cut at its last slash. -/
def lineage (fuel : Nat) (path : List Char) : List String :=
  match fuel with
  | 0 => []
  | fuel + 1 =>
    String.ofList path ::
      match Text.splitLast '/' path with
      | some (up, _) => lineage fuel up
      | none => []

/-- Create the groups of `paths` in turn, up to the first that exists. -/
def createChain (t : GroupTree) : List String → GroupTree
  | [] => t
  | p :: ps => if (t.get? p).isSome then t else createChain (t.put (Group.ofPath p)) ps

/-- Create the group at `path` and its missing ancestors; answer the group. -/
def create (t : GroupTree) (path : String) : GroupTree × Group :=
  match t.get? path with
  | some g => (t, g)
  | none => (createChain t (lineage (path.length + 1) path.toList), Group.ofPath path)

/-- Remove the group at `path`; its children stay. Tells whether it was there. -/
def delete (t : GroupTree) (path : String) : GroupTree × Bool :=
  (⟨t.groups.filter (·.path != path), List.Nodup.sublist (List.filter_sublist.map _) t.nodup⟩,
    (t.get? path).isSome)

/-- Every group in display order. -/
def all (t : GroupTree) : List Group := t.groups.mergeSort Group.before

/-- Paths of the groups without a slash, in display order. -/
def roots (t : GroupTree) : List String :=
  ((t.groups.filter fun g => !g.path.toList.contains '/').mergeSort Group.before).map (·.path)

/-- Change the group at `path`, if there is one, keeping its path. -/
def modify (t : GroupTree) (path : String) (f : Group → Group)
    (hf : ∀ g, (f g).path = g.path) : GroupTree :=
  ⟨t.groups.map fun g => if g.path == path then f g else g,
    nodup_paths_map (fun g => by split <;> simp [hf]) t.nodup⟩

/-- Fold the group at `path` in or out. -/
def toggle (t : GroupTree) (path : String) : GroupTree :=
  t.modify path (fun g => { g with expanded := !g.expanded }) fun _ => rfl

/-- Set the fold-out flag of the group at `path`. -/
def setExpanded (t : GroupTree) (path : String) (e : Bool) : GroupTree :=
  t.modify path (fun g => { g with expanded := e }) fun _ => rfl

/-- Unfold `path` and every group on the way to it. -/
def expandTo (t : GroupTree) (path : String) : GroupTree :=
  let pieces := Text.splitOnChar '/' path.toList
  (List.range pieces.length).foldl
    (fun acc i => acc.setExpanded ("/".intercalate ((pieces.take (i + 1)).map String.ofList)) true) t

/-- A group the table lacks counts as unfolded. -/
def isExpanded (t : GroupTree) (path : String) : Bool :=
  match t.get? path with
  | some g => g.expanded
  | none => true

/-- Every group's fold-out flag, by path. -/
def expansion (t : GroupTree) : List (String × Bool) :=
  (t.groups.map fun g => (g.path, g.expanded)).mergeSort fun a b => !(b.1 < a.1)

/-- Lay captured flags over the groups that still exist; tells whether any changed. -/
def mergeExpansion (t : GroupTree) (captured : List (String × Bool)) : GroupTree × Bool :=
  captured.foldl
    (fun (acc : GroupTree × Bool) (p, e) =>
      match acc.1.get? p with
      | some g => if g.expanded != e then (acc.1.setExpanded p e, true) else acc
      | none => acc)
    (t, false)

/-- Number of slashes in a path. -/
def depthOf (path : String) : Nat := path.toList.count '/'

/-- Paths of the direct children of `path`, sorted. -/
def children (t : GroupTree) (path : String) : List String :=
  let lead := (path ++ "/").toList
  let depth := depthOf path + 1
  ((t.groups.map (·.path)).filter fun p => lead.isPrefixOf p.toList && depthOf p == depth).mergeSort
    fun a b => !(b < a)

/-- The group at `path` has children. -/
def hasChildren (t : GroupTree) (path : String) : Bool := !(t.children path).isEmpty

/-- Number of groups. -/
def size (t : GroupTree) : Nat := t.groups.length

/-- Sessions in display order within a group: by title, then id. -/
def memberBefore (a b : Session) : Bool :=
  a.title < b.title || (a.title == b.title && !(b.id < a.id))

/-- The ids of the sessions in the group at `path`, by title and then id. A session without a
group path is in no group, not even one at the empty path. -/
def members (ss : List Session) (path : String) : List String :=
  ((ss.filter fun s => !s.groupPath.isEmpty && s.groupPath == path).mergeSort memberBefore).map
    (·.id)

/-- Create the group that `s` names, if it names one. -/
def createFor (t : GroupTree) (s : Session) : GroupTree :=
  if s.groupPath.isEmpty then t else (t.create s.groupPath).1

/-- Recompute every group's members from the sessions, creating the groups they name. -/
def syncSessions (t : GroupTree) (ss : List Session) : GroupTree :=
  let t := ss.foldl createFor t
  ⟨t.groups.map fun g => { g with sessions := members ss g.path },
    nodup_paths_map (fun _ => rfl) t.nodup⟩

/-- A table of saved groups with members derived from the sessions. -/
def ofParts (gs : List Group) (ss : List Session) : GroupTree := (ofGroups gs).syncSessions ss

end GroupTree

end AgentDeck
