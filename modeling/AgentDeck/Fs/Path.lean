import AgentDeck.Text.Search

/-!
Slash-separated file paths, read component by component.

A path that starts with a slash has the root as its first component; one that starts with
`.` followed by a slash or nothing has the current directory first. After that every piece
between slashes is a component: empty pieces and `.` are skipped, `..` is the parent
directory, anything else is a name. Paths are kept as the text they were written in; the
operations below cut and extend that text, so repeated slashes inside a path survive them.
-/

namespace AgentDeck.Path

/-- One step of a path. -/
inductive Component where
  | root
  | current
  | up
  | name (s : String)
  deriving DecidableEq, Repr

/-- The components of the pieces after the first, each with the index just past it. -/
def bodyParts (start : Nat) : List (List Char) → List (Component × Nat)
  | [] => []
  | p :: ps =>
    let stop := start + p.length
    let rest := bodyParts (stop + 1) ps
    if p.isEmpty || p == ['.'] then rest
    else if p == ['.', '.'] then (.up, stop) :: rest
    else (.name (String.ofList p), stop) :: rest

/-- The components of a path, each with the character index just past it. -/
def parts (s : List Char) : List (Component × Nat) :=
  match s with
  | '/' :: rest => (.root, 1) :: bodyParts 1 (Text.splitOnChar '/' rest)
  | '.' :: '/' :: rest => (.current, 1) :: bodyParts 2 (Text.splitOnChar '/' rest)
  | ['.'] => [(.current, 1)]
  | _ => bodyParts 0 (Text.splitOnChar '/' s)

/-- The components of a path. -/
def components (p : String) : List Component := (parts p.toList).map (·.1)

/-- The path starts at the root. -/
def isAbsolute (p : String) : Bool := p.startsWith "/"

/-- `rel` appended to `base` with one slash between them; an absolute `rel` replaces `base`. -/
def join (base rel : String) : String :=
  if isAbsolute rel then rel
  else if base.isEmpty || base.endsWith "/" then base ++ rel
  else base ++ "/" ++ rel

/-- The last component, if it is a name. -/
def fileName? (p : String) : Option String :=
  match components p |>.getLast? with
  | some (.name s) => some s
  | _ => none

/-- The path without its last component; none when it ends at the root or is empty. -/
def parent? (p : String) : Option String :=
  let ps := parts p.toList
  match ps.getLast? with
  | none | some (.root, _) => none
  | some _ =>
    match ps.dropLast.getLast? with
    | none => some ""
    | some (_, stop) => some (String.ofList (p.toList.take stop))

/-- A file name cut at its last dot: the stem, and the extension if there is one. A name
that starts with its only dot, and `..`, have no extension. -/
def splitDot (name : String) : String × Option String :=
  if name == ".." then (name, none)
  else
    match Text.splitLast '.' name.toList with
    | some (before, after) =>
      if before.isEmpty then (name, none) else (String.ofList before, some (String.ofList after))
    | none => (name, none)

/-- The file name without its extension. -/
def fileStem? (p : String) : Option String := (fileName? p).map fun n => (splitDot n).1

/-- The extension of the file name. -/
def extension? (p : String) : Option String := (fileName? p) >>= fun n => (splitDot n).2

/-- The path with its file name's extension replaced by `ext` (removed when `ext` is
empty): the text is cut right after the stem. A path without a file name stays as it is. -/
def withExtension (p : String) (ext : String) : String :=
  match (parts p.toList).getLast? with
  | some (.name n, stop) =>
    let stem := (splitDot n).1
    let cut := String.ofList (p.toList.take (stop - (n.length - stem.length)))
    if ext.isEmpty then cut else cut ++ "." ++ ext
  | _ => p

/-- The components of `p` after those of `base`, when `p` starts with all of them. -/
def stripBase? (p base : String) : Option (List Component) :=
  dropComponents (components base) (components p)
where
  /-- The second list after the first, when it starts with it. -/
  dropComponents : List Component → List Component → Option (List Component)
    | [], rest => some rest
    | _ :: _, [] => none
    | b :: bs, c :: cs => if b = c then dropComponents bs cs else none

/-- A component as written. -/
def Component.text : Component → String
  | .root => ""
  | .current => "."
  | .up => ".."
  | .name s => s

/-- The text of a list of components: the root as a leading slash, the others joined by
slashes. -/
def ofComponents (cs : List Component) : String :=
  match cs with
  | .root :: rest => "/" ++ "/".intercalate (rest.map Component.text)
  | _ => "/".intercalate (cs.map Component.text)

/-- The names among the components. -/
def names (cs : List Component) : List String :=
  cs.filterMap fun c => match c with
    | .name s => some s
    | _ => none

end AgentDeck.Path
