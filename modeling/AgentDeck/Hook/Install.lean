import AgentDeck.Hook.Command
import AgentDeck.Hook.Script
import AgentDeck.World
import AgentDeck.Json.Read
import AgentDeck.Json.Print
import AgentDeck.Text.Blank

/-!
Installing the status hook: the script in place, and both agent hooks registered in the
agent's settings.

The script is written, executable, unless it is already there with the right text. The
settings file is read as JSON (missing, unreadable or blank counts as an empty object); it
must hold an object. Its `hooks` member and each hook's list are made what they must be if
they are something else, and a hook whose command is not yet listed gets an entry running
the script. Only when an entry was added is the file written again, after a copy of the old
file is kept beside it. The install has changed something when it wrote either file.
-/

namespace AgentDeck.Hook

/-- Where an install put things. -/
structure Install where
  scriptPath : String
  settingsPath : String
  eventsDir : String
  /-- False when everything was already in place. -/
  changed : Bool
  deriving DecidableEq, Repr, Inhabited

/-- Write the script unless it is in place; tells whether it was written. -/
def installScript (path : String) : Act Bool := do
  let some dir := Path.parent? path | throw (.config "Invalid hook path")
  Act.mkdirAll dir
  let needed := match ← Act.attempt (Act.readText path) with
    | .ok existing => existing != script
    | .error _ => true
  if !needed then return false
  Act.writeText path script
  Act.chmod path 0o755
  return true

/-- Some entry of a hook's list runs `command`. -/
def hasCommand (entries : List Json) (command : String) : Bool :=
  entries.any fun e => ((e.field? "hooks").bind Json.asArray?).any fun hs =>
    hs.any fun h => (h.field? "command").bind Json.asString? == some command

/-- The entry registering `command`. -/
def entryFor (command : String) : Json :=
  .obj [("hooks", .arr [.obj [("command", .str command), ("type", .str "command")]]),
    ("matcher", .str "")]

/-- The hooks object with every agent hook registered; tells whether an entry was added. -/
def registerAll (hooks : List (String × Json)) (scriptPath eventsDir : String) :
    List (String × Json) × Bool :=
  events.foldl (fun (acc : List (String × Json) × Bool) (name, kind) =>
    let entries := ((acc.1.lookup name).bind Json.asArray?).getD []
    let cmd := command scriptPath kind eventsDir
    if hasCommand entries cmd then (Json.setMember acc.1 name (.arr entries), acc.2)
    else (Json.setMember acc.1 name (.arr (entries ++ [entryFor cmd])), true)) (hooks, false)

/-- The settings as the install reads them: a missing, unreadable or blank file counts as an
empty object. -/
def readSettings (settingsPath : String) : Act Json := do
  match ← Act.attempt (Act.readText settingsPath) with
  | .ok text =>
    if text.trimBlank.isEmpty then pure (Json.obj [])
    else match Json.parse text with
      | .ok j => pure j
      | .error e => throw (.json e)
  | .error _ => pure (Json.obj [])

/-- Register the hooks in the settings `root` read from the file, which `existed`; tells
whether the file was written. -/
def writeSettings (settingsPath scriptPath eventsDir : String) (existed : Bool) (root : Json) :
    Act Bool := do
  let .obj members := root
    | throw (.config "Invalid root JSON in ~/.claude/settings.json")
  let hooks := ((members.lookup "hooks").bind Json.asObject?).getD []
  let (hooks, changed) := registerAll hooks scriptPath eventsDir
  if !changed then return false
  if existed then
    let _ ← Act.attempt (Act.copy settingsPath (Path.withExtension settingsPath "json.bak"))
  Act.writeText settingsPath (Json.pretty (.obj (Json.setMember members "hooks" (.obj hooks))))
  return true

/-- Register the hooks in the settings file; tells whether it was written. -/
def ensureSettings (settingsPath scriptPath eventsDir : String) : Act Bool := do
  if let some dir := Path.parent? settingsPath then Act.mkdirAll dir
  let existed ← Act.pathExists settingsPath
  let root ← readSettings settingsPath
  writeSettings settingsPath scriptPath eventsDir existed root

/-- Install the hook with the script, settings and report directory at the given paths. -/
def installAt (scriptPath settingsPath eventsDir : String) : Act Install := do
  Act.mkdirAll eventsDir
  let wroteScript ← installScript scriptPath
  let wroteSettings ← ensureSettings settingsPath scriptPath eventsDir
  return { scriptPath, settingsPath, eventsDir, changed := wroteScript || wroteSettings }

end AgentDeck.Hook
