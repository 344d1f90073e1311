import AgentDeck.Error
import AgentDeck.Fs.Path

/-!
A file system as a value: absolute paths mapped to files and directories.

Paths are normalized before use: `.` is dropped and `..` goes up, as on a file system
without symbolic links, once the walk has checked that the place a `..` leaves is a
directory (`locate`). The root always exists. Each operation answers as a POSIX system
would, with the same failures: a missing directory on the way is `No such file or
directory`, a file on the way is `Not a directory`, writing or reading a directory as a file
is `Is a directory`, and so on.

Each file carries its permission bits and the time of its last change, a number that grows
with every write.
-/

namespace AgentDeck.Fs

/-- What a path holds. -/
inductive Entry where
  | file (data : ByteArray) (mode : Nat) (mtime : Nat)
  | dir (mtime : Nat)
  deriving Inhabited

/-- The entry is a directory. -/
def Entry.isDir : Entry → Bool
  | .dir _ => true
  | .file .. => false

/-- The time of the entry's last change. -/
def Entry.mtime : Entry → Nat
  | .file _ _ t => t
  | .dir t => t

/-- The size an entry reports: a file's length; a directory reports one block. -/
def Entry.size : Entry → Nat
  | .file data _ _ => data.size
  | .dir _ => 4096

/-- Normalized absolute path of `p`, read from the directory `cwd` when relative. -/
def normalize (cwd p : String) : String :=
  let full := if Path.isAbsolute p then p else Path.join cwd p
  let names := (Path.components full).foldl (fun (acc : List String) c =>
    match c with
    | .name s => acc ++ [s]
    | .up => acc.dropLast
    | _ => acc) []
  "/" ++ "/".intercalate names

/-- Every place a walk of `p` from the directory `cwd` passes through, normalized, the
root first. -/
def visited (cwd p : String) : List String :=
  let cs := Path.components (if Path.isAbsolute p then p else Path.join cwd p)
  (List.range (cs.length + 1)).map fun k => normalize "/" (Path.ofComponents (cs.take k))

/-- The proper ancestors of a normalized path, from the root's child down. -/
def ancestors (p : String) : List String :=
  let names := Path.names (Path.components p)
  (List.range (names.length - 1)).map fun i => "/" ++ "/".intercalate (names.take (i + 1))

/-- The parent of a normalized path; the root is its own parent. -/
def parentOf (p : String) : String :=
  let names := Path.names (Path.components p)
  "/" ++ "/".intercalate names.dropLast

/-- The last name of a normalized path. -/
def baseName (p : String) : String := (Path.names (Path.components p)).getLastD ""

/-- Files and directories by normalized path; the root is not listed. -/
structure Files where
  entries : List (String × Entry) := []
  /-- Changes made so far; the next change is stamped with this. -/
  clock : Nat := 1
  deriving Inhabited

/-- Default permission bits of a new file. -/
def fileMode : Nat := 0o644

namespace Files

/-- The entry at a normalized path. -/
def get? (fs : Files) (p : String) : Option Entry :=
  if p == "/" then some (.dir 0) else fs.entries.lookup p

/-- Put an entry at a normalized path. -/
def put (fs : Files) (p : String) (e : Entry) : Files :=
  let entries := if (fs.entries.lookup p).isSome then
      fs.entries.map fun (k, v) => if k == p then (k, e) else (k, v)
    else fs.entries ++ [(p, e)]
  { entries, clock := fs.clock + 1 }

/-- Remove the entry at a normalized path and everything below it. -/
def drop (fs : Files) (p : String) : Files :=
  let lead := (p ++ "/").toList
  { fs with entries := fs.entries.filter fun (k, _) => k != p && !lead.isPrefixOf k.toList }

/-- Every directory on the way to `p` exists: the first missing one is `No such file or
directory`, a file on the way is `Not a directory`. -/
def reach (fs : Files) (p : String) : Except IoFault Unit :=
  (ancestors p).forM fun a =>
    match fs.get? a with
    | none => .error .noEntry
    | some (.file ..) => .error .notDirectory
    | some (.dir _) => .ok ()

/-- What stands at `p`. -/
def stat (fs : Files) (p : String) : Except IoFault Entry := do
  fs.reach p
  match fs.get? p with
  | some e => return e
  | none => throw .noEntry

/-- The bytes of the file at `p`. -/
def read (fs : Files) (p : String) : Except IoFault ByteArray := do
  match ← fs.stat p with
  | .file data _ _ => return data
  | .dir _ => throw .isDirectory

/-- Create or replace the file at `p`; an existing file keeps its permission bits. -/
def write (fs : Files) (p : String) (data : ByteArray) : Except IoFault Files := do
  fs.reach p
  match fs.get? p with
  | some (.dir _) => throw .isDirectory
  | some (.file _ mode _) => return fs.put p (.file data mode fs.clock)
  | none => return fs.put p (.file data fileMode fs.clock)

/-- Create the file at `p` if it is missing, leaving an existing one as it is. -/
def touch (fs : Files) (p : String) : Except IoFault Files := do
  fs.reach p
  match fs.get? p with
  | some (.dir _) => throw .isDirectory
  | some (.file ..) => return fs
  | none => return fs.put p (.file ByteArray.empty fileMode fs.clock)

/-- Make one directory. -/
def mkdir (fs : Files) (p : String) : Except IoFault Files := do
  fs.reach p
  match fs.get? p with
  | some _ => throw IoFault.occupied
  | none => return fs.put p (.dir fs.clock)

/-- The names in the directory at `p`, sorted. -/
def list (fs : Files) (p : String) : Except IoFault (List String) := do
  match ← fs.stat p with
  | .file .. => throw .notDirectory
  | .dir _ =>
    let names := fs.entries.filterMap fun (k, _) =>
      if k != "/" && parentOf k == p then some (baseName k) else none
    return names.mergeSort fun a b => !(b < a)

/-- Remove the file at `p`. -/
def removeFile (fs : Files) (p : String) : Except IoFault Files := do
  match ← fs.stat p with
  | .dir _ => throw .isDirectory
  | .file .. => return { fs.drop p with clock := fs.clock + 1 }

/-- Move what is at `src` to `dst`, replacing a file there, or an empty directory by a
directory. -/
def rename (fs : Files) (src dst : String) : Except IoFault Files := do
  let e ← fs.stat src
  fs.reach dst
  if src == dst then return fs
  match e, fs.get? dst with
  | .file .., some (.dir _) => throw .isDirectory
  | .dir _, some (.file ..) => throw .notDirectory
  | .dir _, some (.dir _) =>
    if (← fs.list dst).isEmpty then pure () else throw .notEmpty
  | _, _ => pure ()
  let lead := (src ++ "/").toList
  let moved := fs.entries.filterMap fun (k, v) =>
    if k == src then some (dst, v)
    else if lead.isPrefixOf k.toList then some (dst ++ String.ofList (k.toList.drop src.length), v)
    else none
  let rest := (fs.drop src).drop dst
  return { entries := rest.entries ++ moved, clock := fs.clock + 1 }

/-- Copy the file at `src` to `dst` with its permission bits. -/
def copy (fs : Files) (src dst : String) : Except IoFault Files := do
  match ← fs.stat src with
  | .dir _ =>
    throw ⟨.other, "the source path is neither a regular file nor a symlink to a regular file"⟩
  | .file data mode _ =>
    fs.reach dst
    match fs.get? dst with
    | some (.dir _) => throw .isDirectory
    | _ => return fs.put dst (.file data mode fs.clock)

/-- Set the permission bits of the file at `p`. -/
def chmod (fs : Files) (p : String) (mode : Nat) : Except IoFault Files := do
  match ← fs.stat p with
  | .file data _ t => return fs.put p (.file data mode t)
  | .dir _ => return fs

/-- The normalized absolute path that `p` names, read from the directory `cwd` as the
system walks it: a `..` goes up from the place the walk has reached, which must be a
directory, so a missing name or a file before a `..` fails as it would on the way down.
Where it succeeds it gives `normalize cwd p`. -/
def locate (fs : Files) (cwd p : String) : Except IoFault String := do
  let full := if Path.isAbsolute p then p else Path.join cwd p
  let names ← (Path.components full).foldlM (fun (acc : List String) c =>
    match c with
    | .name s => pure (acc ++ [s])
    | .up => do
      match ← fs.stat ("/" ++ "/".intercalate acc) with
      | .dir _ => pure acc.dropLast
      | .file .. => throw .notDirectory
    | _ => pure acc) []
  return "/" ++ "/".intercalate names

/-- A directory stands where the path leads. -/
def isDirAt (fs : Files) (cwd p : String) : Bool :=
  match fs.locate cwd p >>= fs.stat with
  | .ok e => e.isDir
  | .error _ => false

/-- Make the one directory that the path names. -/
def mkdirAt (fs : Files) (cwd p : String) : Except IoFault Files := do
  fs.mkdir (← fs.locate cwd p)

/-- Make the directory that a path names, given by its components last first, and the
missing ones on the way, as a recursive creation does: make the whole path; when a
directory on the way is missing, make the path without its last component and then the
whole path once more. A failure is no failure when a directory stands there after all.
Taking away components one by one also makes the names that a `..` later leaves. -/
def mkdirChain (fs : Files) (cwd : String) : List Path.Component → Except IoFault Files
  | [] => .ok fs
  | c :: up =>
    let p := Path.ofComponents (c :: up).reverse
    let settle (fs : Files) (e : IoFault) : Except IoFault Files :=
      if fs.isDirAt cwd p then .ok fs else .error e
    match fs.mkdirAt cwd p with
    | .ok made => .ok made
    | .error e =>
      if e.kind = .notFound then
        match fs.mkdirChain cwd up with
        | .ok below =>
          match below.mkdirAt cwd p with
          | .ok made => .ok made
          | .error e => settle below e
        | .error e => .error e
      else settle fs e

/-- A directory stands at `p`: otherwise missing is `No such file or directory` and a file
is `Not a directory`. -/
def needDir (fs : Files) (p : String) : Except IoFault Unit :=
  match fs.get? p with
  | some (.dir _) => .ok ()
  | some (.file ..) => .error .notDirectory
  | none => .error .noEntry

/-- One step of a walk from the directory `at_`. -/
def step (fs : Files) (at_ : String) : Path.Component → Except IoFault String
  | .name n => do
    fs.needDir at_
    let next := if at_ == "/" then "/" ++ n else at_ ++ "/" ++ n
    if (fs.get? next).isSome then return next else throw .noEntry
  | .up => do fs.needDir at_; return parentOf at_
  | .current => do fs.needDir at_; return at_
  | .root => return "/"

/-- The absolute path `p` names, walked from `cwd` one step at a time as the system resolves
it: every name on the way must exist and every step must leave a directory, `..` going up
from where the walk stands. A trailing slash asks for a directory; an empty path names
nothing. -/
def resolve (fs : Files) (cwd p : String) : Except IoFault String := do
  if p.isEmpty then throw .noEntry
  let start := if Path.isAbsolute p then "/" else normalize "/" cwd
  let last ← (Path.components p).foldlM fs.step start
  if p.endsWith "/" then fs.needDir last
  return last

end Files

end AgentDeck.Fs
