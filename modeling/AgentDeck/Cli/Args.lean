import AgentDeck.Cli.Similar

/-!
The command line: its commands, their options, and how a list of arguments is read.

`deckhand [-p PROFILE] [COMMAND]` takes one of the commands `add`, `list`, `remove`,
`watch`, `hooks install`, `profiles` and `version`; without a command it watches. The
profile option may stand anywhere, before or after the command. A long option takes its value
after `=` or as the next argument, a short one also glued to it; after `--` every argument is
a plain value.

Reading ends in what to run, or in text to print: a help page or the version (to standard
output, status 0), or a usage error (to standard error, status 2). Errors name the argument
at fault, suggest a similar name when there is one, and end with the usage line of the
command being read.
-/

namespace AgentDeck.Cli

/-- An option: its long name, its short letter, and the name of its value if it takes one. -/
structure Flag where
  long : String
  short : Option Char := none
  value : Option String := none
  help : String
  deriving Repr, Inhabited

/-- A command: its path of names, what it does, its own options, its positional argument
(name, whether required, help) and its subcommands (name, what they do). -/
structure Spec where
  path : List String
  about : String
  flags : List Flag := []
  positional : Option (String × Bool × String) := none
  subcommands : List (String × String) := []
  /-- A subcommand must be given. -/
  needsSubcommand : Bool := false
  deriving Repr, Inhabited

/-- The profile option, read on every command. -/
def profileFlag : Flag := { long := "profile", short := some 'p', value := some "PROFILE", help := "Profile to use" }

/-- The help option of every command. -/
def helpFlag : Flag := { long := "help", short := some 'h', help := "Print help" }

/-- The version option of the program itself. -/
def versionFlag : Flag := { long := "version", short := some 'V', help := "Print version" }

/-- What the help subcommand does. -/
def helpAbout : String := "Print this message or the help of the given subcommand(s)"

/-- The program with no command. -/
def rootSpec : Spec :=
  { path := [], about := "Keeps AI coding-agent sessions in sync with tmux and git",
    subcommands := [("add", "Add a new session"), ("list", "List all sessions"),
      ("remove", "Remove a session"),
      ("watch", "Run the dashboard headless, printing the view whenever it changes"),
      ("hooks", "Agent hook management"), ("profiles", "List profiles"), ("version", "Show version")] }

/-- The commands below the program, by name path. -/
def specOf? : List String → Option Spec
  | [] => some rootSpec
  | ["add"] => some
    { path := ["add"], about := "Add a new session",
      flags := [{ long := "title", short := some 't', value := some "TITLE", help := "Session title" },
        { long := "group", short := some 'g', value := some "GROUP", help := "Group path" },
        { long := "cmd", short := some 'c', value := some "CMD", help := "Command to run" },
        { long := "start", help := "Launch the tmux session right away" }],
      positional := some ("PATH", false, "Project directory path") }
  | ["list"] => some
    { path := ["list"], about := "List all sessions", flags := [{ long := "json", help := "Output as JSON" }] }
  | ["remove"] => some
    { path := ["remove"], about := "Remove a session",
      positional := some ("IDENTIFIER", true, "Session ID, ID prefix or title") }
  | ["watch"] => some
    { path := ["watch"], about := "Run the dashboard headless, printing the view whenever it changes",
      flags := [{ long := "once", help := "Print one frame after loading and exit" }] }
  | ["hooks"] => some
    { path := ["hooks"], about := "Agent hook management", needsSubcommand := true,
      subcommands := [("install", "Install the status hook script and register it with the agent")] }
  | ["hooks", "install"] => some
    { path := ["hooks", "install"], about := "Install the status hook script and register it with the agent" }
  | ["profiles"] => some { path := ["profiles"], about := "List profiles" }
  | ["version"] => some { path := ["version"], about := "Show version" }
  | _ => none

namespace Spec

/-- The options a command reads, in the order they were declared; the help option last. -/
def allFlags (s : Spec) : List Flag :=
  s.flags ++ [profileFlag, helpFlag] ++ (if s.path.isEmpty then [versionFlag] else [])

/-- The subcommands a command offers, the help subcommand last. -/
def allSubcommands (s : Spec) : List (String × String) :=
  if s.subcommands.isEmpty then [] else s.subcommands ++ [("help", helpAbout)]

/-- The program's name followed by the command's path. -/
def name (s : Spec) : String := " ".intercalate ("deckhand" :: s.path)

/-- How the positional argument is written: `<NAME>` when required, else `[NAME]`. -/
def positionalText (s : Spec) : Option String :=
  s.positional.map fun (n, required, _) => if required then "<" ++ n ++ ">" else "[" ++ n ++ "]"

/-- The usage line of the command. -/
def usage (s : Spec) : String :=
  let sub := if s.subcommands.isEmpty then ""
    else if s.needsSubcommand then " <COMMAND>" else " [COMMAND]"
  s.name ++ " [OPTIONS]" ++ ((s.positionalText.map (" " ++ ·)).getD "") ++ sub

end Spec

/-- How an option is written in messages: `--long <VALUE>`. -/
def Flag.text (f : Flag) : String :=
  "--" ++ f.long ++ ((f.value.map fun v => " <" ++ v ++ ">").getD "")

/-- Where options are listed: declaration order, except that an option shared with the
program keeps the program's place; ties go by the short letter, else the long name. -/
def Flag.sortKey (s : Spec) (f : Flag) : Nat × String :=
  let order := if f.long == "help" || f.long == "version" then 999
    else if f.long == "profile" then 0
    else (s.flags.findIdx (·.long == f.long))
  let key := match f.short with
    | some c => String.ofList [c.toLower, if c.isLower then '0' else '1']
    | none => f.long
  (order, key)

/-- `s` padded with spaces to `n` characters. -/
def padTo (n : Nat) (s : String) : String := s ++ String.ofList (List.replicate (n - s.length) ' ')

/-- The help page of a command; `envProfile` is the profile the environment names. -/
def helpPage (s : Spec) (envProfile : Option String) : String :=
  let about (f : Flag) : String :=
    if f.long == "profile" then f.help ++ " [env: DECKHAND_PROFILE=" ++ envProfile.getD "" ++ "]" else f.help
  let before (a b : Nat × String) : Bool := a.1 < b.1 || (a.1 == b.1 && a.2 < b.2)
  let flags := s.allFlags.mergeSort fun f g => !before (Flag.sortKey s g) (Flag.sortKey s f)
  let longest := flags.foldl (fun n f => max n f.text.length) 2
  let optionLines := flags.map fun f =>
    let lead := match f.short with
      | some c => "-" ++ String.singleton c ++ ", "
      | none => "    "
    "  " ++ lead ++ padTo (longest + 2) f.text ++ about f
  let subs := s.allSubcommands
  let subWidth := subs.foldl (fun n p => max n p.1.length) 0
  let commandLines := if subs.isEmpty then []
    else ["", "Commands:"] ++ subs.map fun (n, a) => "  " ++ padTo (subWidth + 2) n ++ a
  let argumentLines := match s.positional, s.positionalText with
    | some (_, _, h), some t => ["", "Arguments:", "  " ++ padTo (t.length + 2) t ++ h]
    | _, _ => []
  "\n".intercalate ([s.about, "", "Usage: " ++ s.usage] ++ commandLines ++ argumentLines ++
    ["", "Options:"] ++ optionLines) ++ "\n"

/-- The version line. -/
def versionText : String := "deckhand 0.1.0\n"

/-- A usage error: the message, tips, the usage line when there is one, and the pointer to
the help. -/
def usageError (message : String) (tips : List String) (usage : Option String) : String :=
  let tipText := if tips.isEmpty then "" else "\n" ++ String.join (tips.map ("\n  tip: " ++ ·))
  "error: " ++ message ++ tipText ++ ((usage.map ("\n\nUsage: " ++ ·)).getD "") ++
    "\n\nFor more information, try '--help'.\n"

/-- What the command line asks to run. -/
inductive Command where
  | add (path title group cmd : Option String) (start : Bool)
  | list (json : Bool)
  | remove (identifier : String)
  | watch (once : Bool)
  | hooksInstall
  | profiles
  | version
  deriving Repr, Inhabited

/-- A command line read to the end: the profile named on it, and the command. -/
structure Invocation where
  profile : Option String := none
  command : Option Command := none
  deriving Repr, Inhabited

/-- The outcome of reading a command line. -/
inductive Reading where
  | run (inv : Invocation)
  /-- Text for standard output, then status 0. -/
  | show (text : String)
  /-- Text for standard error, then status 2. -/
  | fail (text : String)
  deriving Repr, Inhabited

/-- An argument of a command that a reading has met: an option by its long name, or the
positional argument. -/
inductive Slot where
  | option (long : String)
  | positional
  deriving DecidableEq, Repr, Inhabited

/-- What one command's arguments held. -/
structure Found where
  values : List (String × String) := []
  flags : List String := []
  positional : Option String := none
  /-- The arguments met, in the order they were first met. -/
  seen : List Slot := []
  deriving Repr, Inhabited

/-- `f` without the option `long`. -/
def Found.erase (f : Found) (long : String) : Found :=
  { f with
    values := f.values.filter (·.1 != long)
    flags := f.flags.filter (· != long)
    seen := f.seen.filter (· != .option long) }

/-- `f` having met `slot`; a slot met before keeps its place. -/
def Found.meet (f : Found) (slot : Slot) : Found :=
  if f.seen.contains slot then f else { f with seen := f.seen ++ [slot] }

/-- An option waiting to be recorded: it is taken when the next option, positional value or
subcommand is met, or when the arguments run out, and then it must have its value. -/
structure Pending where
  flag : Flag
  value : Option String := none
  deriving Repr, Inhabited

/-- Where reading one command's arguments ended. -/
inductive Step where
  /-- The arguments ran out. -/
  | done (f : Found)
  /-- A subcommand was named, with the arguments after it. -/
  | descend (f : Found) (name : String) (rest : List String)
  /-- Reading stops with this outcome. -/
  | stop (r : Reading)
  deriving Inhabited

/-- The option of `s` named by a long name. -/
def findLong (s : Spec) (n : String) : Option Flag := s.allFlags.find? (·.long == n)

/-- The option of `s` named by a short letter. -/
def findShort (s : Spec) (c : Char) : Option Flag := s.allFlags.find? (·.short == some c)

/-- The usage line of `s` that names the arguments `used`: those options in the order met,
then the positional argument, required when given; with nothing used, the full usage. -/
def Spec.usageWith (s : Spec) (used : List Slot) : String :=
  if used.isEmpty then s.usage
  else
    let longs := (used.filterMap fun
      | .option l => some l
      | .positional => none).eraseDups
    let options := longs.filterMap fun l => (findLong s l).map Flag.text
    let positional := s.positional.map fun (n, required, _) =>
      if required || used.contains .positional then "<" ++ n ++ ">" else "[" ++ n ++ "]"
    s.name ++ String.join (options.map (" " ++ ·)) ++ ((positional.map (" " ++ ·)).getD "") ++
      (if s.needsSubcommand then " <COMMAND>" else "")

/-- The tip for an argument that looks like an option but may have been meant as a value. -/
def valueTip (arg : String) : String := "to pass '" ++ arg ++ "' as a value, use '-- " ++ arg ++ "'"

/-- The error for an argument that the command has no place for. -/
def unknownArgument (arg : String) (tips : List String) (usage : String) : Reading :=
  .fail (usageError ("unexpected argument '" ++ arg ++ "' found") tips (some usage))

/-- Record an option's value or presence; an option given twice is an error. -/
def record (s : Spec) (f : Found) (flag : Flag) (value : Option String) : Except Reading Found :=
  if f.values.any (·.1 == flag.long) || f.flags.contains flag.long then
    .error (.fail (usageError ("the argument '" ++ flag.text ++ "' cannot be used multiple times") [] (some s.usage)))
  else match value with
    | some v => .ok ({ f with values := f.values ++ [(flag.long, v)] }.meet (.option flag.long))
    | none => .ok ({ f with flags := f.flags ++ [flag.long] }.meet (.option flag.long))

/-- The error for an option left without its value. -/
def missingValue (flag : Flag) : Reading :=
  .fail (usageError ("a value is required for '" ++ flag.text ++ "' but none was supplied") [] none)

/-- Take the waiting option, if any: it needs its value. -/
def settle (s : Spec) (f : Found) : Option Pending → Except Reading Found
  | none => .ok f
  | some ⟨flag, none⟩ => .error (missingValue flag)
  | some ⟨flag, some v⟩ => record s f flag (some v)

/-- Take the waiting option on the way to another error: a fault in it is passed over, and
an option given twice is dropped. -/
def settleQuietly (s : Spec) (f : Found) (p : Option Pending) : Found :=
  match p with
  | some ⟨flag, some v⟩ =>
    match record s f flag (some v) with
    | .ok f' => f'
    | .error _ => f.erase flag.long
  | _ => f

/-- The names of the subcommands of `s`, the help subcommand last. -/
def Spec.subcommandNames (s : Spec) : List String := s.allSubcommands.map (·.1)

/-- The error for a long option `--name` that `s` does not have. The most similar option of
`s` is suggested and named in the usage line; failing that, an option of a subcommand named
later on the line, the nearest such; failing that, passing it as a value when `s` takes a
positional argument. -/
def unknownLong (s : Spec) (f : Found) (name : String) (rest : List String) : Reading :=
  let arg := "--" ++ name
  match (similarNames name (s.allFlags.map (·.long))).getLast? with
  | some c =>
    let f := if (findLong s c).isSome then f.meet (.option c) else f
    unknownArgument arg ["a similar argument exists: '--" ++ c ++ "'"] (s.usageWith f.seen)
  | none =>
    let hits := s.subcommandNames.filterMap fun n =>
      match specOf? (s.path ++ [n]) with
      | some sub => do
        let c ← (similarNames name (sub.allFlags.map (·.long))).getLast?
        let pos ← rest.idxOf? n
        return (pos, n, c)
      | none => none
    let nearest := hits.foldl (fun (best : Option (Nat × String × String)) h =>
      match best with
      | some b => if h.1 < b.1 then some h else some b
      | none => some h) none
    match nearest with
    | some (_, n, c) => unknownArgument arg ["'" ++ n ++ " --" ++ c ++ "' exists"] (s.usageWith f.seen)
    | none =>
      let tips := if s.positional.isSome then [valueTip arg] else []
      unknownArgument arg tips (s.usageWith f.seen)

/-- The error for a plain argument that `s` has no place for. After `--`, a subcommand's
name is pointed out; a command with subcommands suggests similar names and takes no other
plain argument. -/
def unplaced (s : Spec) (a : String) (escaped : Bool) : Reading :=
  if escaped && s.subcommandNames.contains a then
    unknownArgument a ["subcommand '" ++ a ++ "' exists; to use it, remove the '--' before it"] s.usage
  else if !s.subcommands.isEmpty then
    match similarNames a s.subcommandNames with
    | [] =>
      if s.positional.isNone then .fail (usageError ("unrecognized subcommand '" ++ a ++ "'") [] (some s.usage))
      else unknownArgument a [] s.usage
    | similar =>
      let tips := match similar with
        | [n] => ["a similar subcommand exists: '" ++ n ++ "'"]
        | ns => ["some similar subcommands exist: " ++ ", ".intercalate (ns.map fun n => "'" ++ n ++ "'")]
      .fail (usageError ("unrecognized subcommand '" ++ a ++ "'") tips (some s.usage))
  else unknownArgument a [] s.usage

/-- An option that takes no value, met while `p` waits: the waiting option is taken first;
the help and version options then end the reading, and any other is recorded. -/
def presence (s : Spec) (envProfile : Option String) (f : Found) (p : Option Pending) (flag : Flag) :
    Except Reading Found := do
  let f ← settle s f p
  if flag.long == "help" then throw (.show (helpPage s envProfile))
  else if flag.long == "version" then throw (.show versionText)
  else record s f flag none

/-- The option `--name`, with the value after `=` if there is one. A value given to an
option that takes none is an error whose usage line names the options recorded so far. -/
def longOption (s : Spec) (envProfile : Option String) (f : Found) (p : Option Pending)
    (name : String) (attached : Option String) (rest : List String) :
    Except Reading (Found × Option Pending) :=
  match findLong s name with
  | none => throw (unknownLong s (settleQuietly s f p) name rest)
  | some flag =>
    match flag.value, attached with
    | some _, some v => do
      let f ← settle s f p
      return (← record s f flag (some v), none)
    | some _, none => do
      let f ← settle s f p
      return (f, some { flag })
    | none, some v =>
      throw (.fail (usageError ("unexpected value '" ++ v ++ "' for '" ++ flag.text ++
        "' found; no more were expected") [] (some (s.usageWith (f.seen ++ [.option flag.long])))))
    | none, none => do
      return (← presence s envProfile f p flag, none)

/-- The letters of a cluster `-abc`: options without a value are taken one by one, and an
option with a value takes the rest of the cluster as its value, after an optional `=`, or
else waits for it. -/
def shortOptions (s : Spec) (envProfile : Option String) (f : Found) (p : Option Pending) :
    List Char → Except Reading (Found × Option Pending)
  | [] => .ok (f, p)
  | c :: cs =>
    match findShort s c with
    | none =>
      let arg := "-" ++ String.singleton c
      throw (unknownArgument arg (if s.positional.isSome then [valueTip arg] else []) s.usage)
    | some flag =>
      match flag.value with
      | some _ =>
        if cs.isEmpty then do
          let f ← settle s f p
          return (f, some { flag })
        else do
          let v := match cs with
            | '=' :: v => String.ofList v
            | v => String.ofList v
          let f ← settle s f p
          return (← record s f flag (some v), none)
      | none => do
        let f ← presence s envProfile f p flag
        shortOptions s envProfile f none cs

/-- The help page of the help subcommand below `s`, which takes only names. -/
def helpCommandPage (s : Spec) : String :=
  helpAbout ++ "\n\nUsage: " ++ s.name ++ " help [COMMAND]...\n\nArguments:\n" ++
    "  [COMMAND]...  Print help for the subcommand(s)\n"

/-- The help page asked for by `help NAME...` below the command `s`. The help subcommand has
no subcommands and no options of its own, so an error below it points to no help option. -/
def helpFor (s : Spec) (envProfile : Option String) : List String → Reading
  | [] => .show (helpPage s envProfile)
  | n :: rest =>
    if n == "help" && !s.subcommands.isEmpty then
      match rest with
      | [] => .show (helpCommandPage s)
      | m :: _ =>
        .fail ("error: unrecognized subcommand '" ++ m ++ "'\n\nUsage: " ++ s.name ++ " help [COMMAND]...\n")
    else match specOf? (s.path ++ [n]) with
      | some sub => helpFor sub envProfile rest
      | none => .fail (usageError ("unrecognized subcommand '" ++ n ++ "'") [] (some s.usage))
termination_by names => names.length

/-- Read the arguments of one command up to a subcommand's name or the end. `p` is the
option waiting to be recorded; after `--` (`escaped`) every argument is a plain value. A
subcommand's name is taken as one even while an option waits for its value, and so is an
argument that looks like an option. -/
def readArgs (s : Spec) (envProfile : Option String) :
    List String → Found → Option Pending → Bool → Step
  | [], f, p, _ =>
    match settle s f p with
    | .ok f => .done f
    | .error r => .stop r
  | a :: rest, f, p, escaped =>
    let continueWith (r : Except Reading (Found × Option Pending)) : Step :=
      match r with
      | .ok (f, p) => readArgs s envProfile rest f p escaped
      | .error r => .stop r
    if !escaped && s.subcommandNames.contains a then
      if a == "help" then .stop (helpFor s envProfile rest)
      else match settle s f p with
        | .ok f => .descend f a rest
        | .error r => .stop r
    else if !escaped && a == "--" then readArgs s envProfile rest f p true
    else if !escaped && a.startsWith "--" then
      let (nameChars, tail) := (a.toList.drop 2).span (· != '=')
      let attached := match tail with
        | _ :: v => some (String.ofList v)
        | [] => none
      continueWith (longOption s envProfile f p (String.ofList nameChars) attached rest)
    else if !escaped && a.startsWith "-" && a.length > 1 then
      continueWith (shortOptions s envProfile f p (a.toList.drop 1))
    else match p, escaped with
      | some ⟨flag, none⟩, false => readArgs s envProfile rest f (some ⟨flag, some a⟩) escaped
      | _, _ =>
        if s.positional.isSome && f.positional.isNone then
          match settle s f p with
          | .ok f =>
            readArgs s envProfile rest ({ f with positional := some a }.meet .positional) none escaped
          | .error r => .stop r
        else .stop (unplaced s a escaped)

/-- The command a full reading names. -/
def commandOf (path : List String) (found : List Found) : Option Command :=
  let f := (found.getLast?).getD {}
  let value (k : String) : Option String := f.values.lookup k
  match path with
  | ["add"] => some (.add f.positional (value "title") (value "group") (value "cmd") (f.flags.contains "start"))
  | ["list"] => some (.list (f.flags.contains "json"))
  | ["remove"] => some (.remove (f.positional.getD ""))
  | ["watch"] => some (.watch (f.flags.contains "once"))
  | ["hooks", "install"] => some .hooksInstall
  | ["profiles"] => some .profiles
  | ["version"] => some .version
  | _ => none

/-- Check what was read for the command `s` once its arguments ran out. A profile that the
environment names counts as given when the command line gave none. A command that needs a
subcommand shows its help when nothing at all was given to it. -/
def finish (s : Spec) (envProfile : Option String) (f : Found) : Option Reading :=
  let f := if envProfile.isSome then f.meet (.option "profile") else f
  match s.positional with
  | some (n, true, _) =>
    if f.positional.isNone then
      some (.fail (usageError ("the following required arguments were not provided:\n  <" ++ n ++ ">") []
        (some (s.usageWith (f.seen ++ [.positional])))))
    else none
  | _ =>
    if s.needsSubcommand then
      if f.seen.isEmpty then some (.fail (helpPage s envProfile))
      else some (.fail (usageError ("'" ++ s.name ++ "' requires a subcommand but one was not provided\n  [subcommands: " ++
        ", ".intercalate s.subcommandNames ++ "]") [] (some s.usage)))
    else none

/-- Read the arguments from the command `s` down, gathering what each level held. -/
def readFrom (s : Spec) (envProfile : Option String) (args : List String) (found : List Found) :
    Nat → Reading
  | 0 => .fail "error: too many subcommands\n"
  | fuel + 1 =>
    match readArgs s envProfile args {} none false with
    | .stop r => r
    | .done f =>
      match finish s envProfile f with
      | some r => r
      | none =>
        let found := found ++ [f]
        let profile := (found.filterMap (·.values.lookup "profile")).getLast? <|> envProfile
        .run { profile, command := commandOf s.path found }
    | .descend f name rest =>
      match specOf? (s.path ++ [name]) with
      | some sub => readFrom sub envProfile rest (found ++ [f]) fuel
      | none => .fail (usageError ("unrecognized subcommand '" ++ name ++ "'") [] (some s.usage))

/-- Read a command line; `envProfile` is the profile the environment names, if any. -/
def read (envProfile : Option String) (args : List String) : Reading :=
  readFrom rootSpec envProfile args [] 3

end AgentDeck.Cli
