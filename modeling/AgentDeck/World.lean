import AgentDeck.Fs.Tree
import AgentDeck.Time.Stamp
import AgentDeck.Text.Utf8
import AgentDeck.Json.Print

/-!
The world the dashboard acts on: files, external programs, the clock and the environment.

Everything the dashboard does outside its own state is an action on this value
(`Act`): reading and writing files, running `git`, `gh` or `tmux`, reading the clock. An
external program answers from a script of replies, one per call in order, then a fallback;
every call is recorded with its working directory and arguments. The clock counts
milliseconds from a fixed instant; a new id is twelve hexadecimal digits drawn from a
counter.

A world may also hold an in-memory multiplexer (`Panes`) and record calls made to it and to
an in-memory git, for running the dashboard without external programs.
-/

namespace AgentDeck

/-- A recorded run of an external program. -/
structure ProgramCall where
  prog : String
  cwd : String
  args : List String
  deriving Repr, Inhabited

/-- What an external program prints and how it exits. -/
structure Reply where
  stdout : String := ""
  stderr : String := ""
  code : Int := 0
  deriving Repr, Inhabited

/-- Scripted external programs. -/
structure Programs where
  replies : List Reply := []
  fallback : Reply := {}
  calls : List ProgramCall := []
  deriving Repr, Inhabited

/-- An in-memory multiplexer: live panes by name with their text. -/
structure Panes where
  live : List (String × String) := []
  /-- When set, listing the live panes fails with this message. -/
  listError : Option String := none
  deriving Repr, Inhabited

/-- Environment of the process. -/
structure Env where
  home : String := "/home/oracle"
  /-- The dashboard's home directory, when set explicitly. -/
  deckHome : Option String := none
  /-- The profile named by the environment. -/
  profile : Option String := none
  cwd : String := "/"
  /-- The login shell, when set. -/
  shell : Option String := none
  /-- The id of the program's process. -/
  pid : Nat := 1
  deriving Repr, Inhabited

/-- The instant the clock of a fresh world counts from. -/
def World.epoch : Time.Stamp := ⟨1924992000, 0⟩

/-- Everything outside the dashboard's own state. -/
structure World where
  files : Fs.Files := {}
  programs : Programs := {}
  panes : Panes := {}
  /-- Calls made to the in-memory multiplexer and git, in order. -/
  fakeCalls : List String := []
  env : Env := {}
  /-- The instant the clock counts from. -/
  origin : Time.Stamp := World.epoch
  /-- Milliseconds since `origin`. -/
  clock : Nat := 0
  /-- Ids handed out so far. -/
  issued : Nat := 0
  deriving Inhabited

/-- Actions on the world that may fail. -/
abbrev Act := EStateM Error World

namespace Act

/-- A file-system result as an action. -/
def io {α : Type} (r : Except IoFault α) : Act α :=
  match r with
  | .ok a => pure a
  | .error f => throw (.io f)

/-- Run an action and catch its failure. -/
def attempt {α : Type} (a : Act α) : Act (Except Error α) :=
  tryCatch (a.map .ok) fun e => pure (.error e)

/-- The normalized absolute form of a path, found by walking it. -/
def abs (p : String) : Act String := do
  let w ← get
  io (w.files.locate w.env.cwd p)

/-- Change the files. -/
def withFiles (f : Fs.Files → Except IoFault Fs.Files) : Act Unit := do
  let w ← get
  let fs ← io (f w.files)
  set { w with files := fs }

/-- The bytes of a file. -/
def readBytes (p : String) : Act ByteArray := do
  let q ← abs p
  io ((← get).files.read q)

/-- The text of a file, which must be UTF-8. -/
def readText (p : String) : Act String := do
  match String.fromUTF8? (← readBytes p) with
  | some s => return s
  | none => throw (.io .notUtf8)

/-- Create or replace a file with bytes. -/
def writeBytes (p : String) (data : ByteArray) : Act Unit := do
  let q ← abs p
  withFiles (·.write q data)

/-- Create or replace a file with text. -/
def writeText (p : String) (s : String) : Act Unit := writeBytes p s.toUTF8

/-- Create a file if it is missing. -/
def touch (p : String) : Act Unit := do
  let q ← abs p
  withFiles (·.touch q)

/-- Make a directory and its missing parents. -/
def mkdirAll (p : String) : Act Unit := do
  let cwd := (← get).env.cwd
  withFiles (·.mkdirChain cwd (Path.components p).reverse)

/-- Make one directory. -/
def mkdir (p : String) : Act Unit := do
  let q ← abs p
  withFiles (·.mkdir q)

/-- Remove a file. -/
def removeFile (p : String) : Act Unit := do
  let q ← abs p
  withFiles (·.removeFile q)

/-- Move a file or directory. -/
def rename (src dst : String) : Act Unit := do
  let s ← abs src
  let d ← abs dst
  withFiles (·.rename s d)

/-- Copy a file. -/
def copy (src dst : String) : Act Unit := do
  let s ← abs src
  let d ← abs dst
  withFiles (·.copy s d)

/-- Set a file's permission bits. -/
def chmod (p : String) (mode : Nat) : Act Unit := do
  let q ← abs p
  withFiles (·.chmod q mode)

/-- What stands at a path. -/
def stat (p : String) : Act Fs.Entry := do
  let q ← abs p
  io ((← get).files.stat q)

/-- The absolute path a path names, every step of it checked. -/
def canonicalize (p : String) : Act String := do
  let w ← get
  io (w.files.resolve w.env.cwd p)

/-- Something stands at the path. -/
def pathExists (p : String) : Act Bool := do
  let w ← get
  return (w.files.locate w.env.cwd p >>= w.files.stat).toOption.isSome

/-- A directory stands at the path. -/
def isDir (p : String) : Act Bool := do
  let w ← get
  return w.files.isDirAt w.env.cwd p

/-- The names in a directory, sorted. -/
def list (p : String) : Act (List String) := do
  let q ← abs p
  io ((← get).files.list q)

/-- The current instant. -/
def now : Act Time.Stamp := do
  let w ← get
  return w.origin.addMs w.clock

/-- Let `ms` milliseconds pass. File times move on with the clock, in nanoseconds, so the
age of a file is the distance of its time from the file clock. -/
def sleep (ms : Nat) : Act Unit := modify fun w =>
  { w with clock := w.clock + ms, files := { w.files with clock := w.files.clock + ms * 1000000 } }

/-- Milliseconds since the file at `p` last changed; a missing file is an error. -/
def ageOf (p : String) : Act Nat := do
  let e ← stat p
  return ((← get).files.clock - e.mtime) / 1000000

/-- Twelve lowercase hexadecimal digits of `n`. -/
def hex12 (n : Nat) : String :=
  String.ofList ((List.range 12).reverse.map fun i => Json.hexDigit (n / Nat.pow 16 i % 16))

/-- The id handed out `n`-th, counted from zero. -/
def idAt (n : Nat) : String := hex12 (0x9f3a7c5e10b2 + 0x1f3 * n)

/-- A new session or task id. -/
def freshId : Act String := do
  let w ← get
  set { w with issued := w.issued + 1 }
  return idAt w.issued

/-- Record a call to the in-memory multiplexer or git. -/
def note (call : String) : Act Unit := modify fun w => { w with fakeCalls := w.fakeCalls ++ [call] }

/-- Run an external program in `cwd`: a missing directory fails before it starts. -/
def run (prog cwd : String) (args : List String) : Act Reply := do
  if cwd.isEmpty then throw (.io .noEntry)
  let d ← abs cwd
  match (← get).files.stat d with
  | .ok (.dir _) => pure ()
  | .ok _ => throw (.io .notDirectory)
  | .error f => throw (.io f)
  let w ← get
  let n := w.programs.calls.length
  let reply := (w.programs.replies[n]?).getD w.programs.fallback
  let call : ProgramCall := ⟨prog, cwd, args⟩
  set { w with programs := { w.programs with calls := w.programs.calls ++ [call] } }
  return reply

end Act

end AgentDeck
