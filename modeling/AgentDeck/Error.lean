import AgentDeck.Json.Read

/-!
Why an operation of the library failed.

A failure names its cause: the file system, a JSON or TOML document, a file watch, the
multiplexer, git, a missing session, the configuration, the registry, bad input, an external
command, or something else. Each cause is shown as one line of text (`Error.text`): a
fixed lead naming the cause, then the detail.

File-system failures carry a kind, which callers test (a missing file is often no failure
at all), and their text. Failures reported by the operating system read like
`Is a directory (os error 21)`.
-/

namespace AgentDeck

/-- Kinds of file-system failure that callers tell apart. -/
inductive IoKind where
  | notFound
  | permissionDenied
  | alreadyExists
  | invalidData
  | isADirectory
  | notADirectory
  | directoryNotEmpty
  | other
  deriving DecidableEq, Repr, Inhabited

/-- A file-system failure: its kind and its text. -/
structure IoFault where
  kind : IoKind
  message : String
  deriving DecidableEq, Repr, Inhabited

namespace IoFault

/-- The failure the operating system reports with error number `code`. -/
def os (kind : IoKind) (code : Nat) (what : String) : IoFault :=
  ⟨kind, what ++ " (os error " ++ toString code ++ ")"⟩

/-- A path does not exist. -/
def noEntry : IoFault := os .notFound 2 "No such file or directory"

/-- A file was expected where a directory is. -/
def isDirectory : IoFault := os .isADirectory 21 "Is a directory"

/-- A directory was expected where a file is. -/
def notDirectory : IoFault := os .notADirectory 20 "Not a directory"

/-- Something already exists at the path. -/
def occupied : IoFault := os .alreadyExists 17 "File exists"

/-- A directory to be removed still has entries. -/
def notEmpty : IoFault := os .directoryNotEmpty 39 "Directory not empty"

/-- A file's text is not UTF-8. -/
def notUtf8 : IoFault := ⟨.invalidData, "stream did not contain valid UTF-8"⟩

end IoFault

/-- Why an operation failed. -/
inductive Error where
  | io (fault : IoFault)
  | json (fault : Json.ReadError)
  | toml (message : String)
  | watch (message : String)
  | mux (message : String)
  | git (message : String)
  | sessionNotFound (id : String)
  | config (message : String)
  | storage (message : String)
  | invalidInput (message : String)
  | commandFailed (message : String)
  | other (message : String)
  deriving Inhabited

namespace Error

/-- The words the failure's line starts with, naming its kind. -/
def label : Error → String
  | .io _ => "IO error: "
  | .json _ => "JSON serialization error: "
  | .toml _ => "TOML parsing error: "
  | .watch _ => "File watch error: "
  | .mux _ => "Tmux error: "
  | .git _ => "Git error: "
  | .sessionNotFound _ => "Session not found: "
  | .config _ => "Configuration error: "
  | .storage _ => "Storage error: "
  | .invalidInput _ => "Invalid input: "
  | .commandFailed _ => "Command execution failed: "
  | .other _ => ""

/-- What the failure says after its label. -/
def detail : Error → String
  | .io f => f.message
  | .json e => e.text
  | .toml m | .watch m | .mux m | .git m | .sessionNotFound m | .config m | .storage m
  | .invalidInput m | .commandFailed m | .other m => m

/-- The failure as one line. -/
def text (e : Error) : String := e.label ++ e.detail

/-- The failure only says that a file is not there. -/
def isNotFound : Error → Bool
  | .io f => f.kind == .notFound
  | _ => false

/-- The failure has an underlying cause of its own, shown after it on the command line. -/
def cause? : Error → Option String
  | .io f => some f.message
  | .json e => some e.text
  | .toml m => some m
  | .watch m => some m
  | _ => none

end Error

end AgentDeck
