import AgentDeck.Cli.Commands

/-!
The program: the command line run against the machine's files.

The commands act on a world value; this layer fills one from the machine, runs the command
line on it, prints what the run printed, writes back what it changed, and ends with its
status. Files are found by name, since only what a command can touch needs to be known: the
settings, the profile's registry with its lock, backups and view state, the hook script and
the agent's settings, and every directory on the way to those and to the paths named on the
command line. After the run, the directories it made are created, the files it made or
changed are written with their permission bits, and the files it removed are removed.

External programs are not started from this layer: every call answers as a program that
cannot be found would, so the multiplexer counts as missing. The clock is the system's, read
from the kernel's boot time and uptime; ids are drawn from it.
-/

namespace AgentDeck.Program

/-- What stands at a path of the machine: a file with its bytes, a directory, or nothing.
Reading a directory fails with `EISDIR` (21). -/
def probe (p : String) : IO (Option Fs.Entry) := do
  match ← (IO.FS.readBinFile p).toBaseIO with
  | .ok data => return some (.file data Fs.fileMode 0)
  | .error (.inappropriateType _ 21 _) => return some (.dir 0)
  | .error _ => return none

/-- The paths a run may touch: the ancestors of the given places, and the named files. -/
def touched (cwd home deckHome profile : String) (args : List String) : List String :=
  let profileDir := Path.join (Path.join deckHome "profiles") profile
  let registry := Path.join profileDir "sessions.json"
  let named := [Path.join deckHome "config.toml", Path.join deckHome "hooks",
    Path.join (Path.join deckHome "hooks") "status_hook.sh",
    Path.join (Path.join deckHome "hooks") "events", Path.join deckHome "profiles", profileDir,
    registry, Path.join profileDir "sessions.bak", Path.join profileDir "sessions.bak.2",
    Path.join profileDir "sessions.bak.3",
    Path.join profileDir "sessions.tmp", Path.join profileDir "sessions.lock",
    Path.join profileDir "ui_state.json", Path.join profileDir "ui_state.tmp",
    Path.join profileDir "logs", Path.join home ".claude",
    Path.join (Path.join home ".claude") "settings.json",
    Path.join (Path.join home ".claude") "settings.json.bak"]
  let places := [cwd, home, deckHome] ++ named ++ args.map (Fs.normalize cwd ·)
  (places.flatMap fun p => (Fs.visited cwd p).flatMap fun q => Fs.ancestors q ++ [q]).eraseDups

/-- The files of the machine at the given paths, as the world sees them. -/
def loadFiles (paths : List String) : IO Fs.Files := do
  let mut fs : Fs.Files := {}
  for p in paths do
    if let some e ← probe p then fs := fs.put p e
  return fs

/-- The permission bits `mode` as the system takes them. -/
def rights (mode : Nat) : IO.FileRight :=
  let part (bits : Nat) : IO.AccessRight :=
    { read := bits / 4 % 2 == 1, write := bits / 2 % 2 == 1, execution := bits % 2 == 1 }
  { user := part (mode / 64 % 8), group := part (mode / 8 % 8), other := part (mode % 8) }

/-- Write back what a run changed: new directories, new or changed files, removed files. -/
def storeFiles (before after : Fs.Files) : IO Unit := do
  let dirs := after.entries.filter fun (p, e) => e.isDir && (before.get? p).isNone
  for (p, _) in dirs.mergeSort (fun a b => a.1.length ≤ b.1.length) do
    IO.FS.createDirAll p
  for (p, e) in after.entries do
    match e, before.get? p with
    | .file data mode t, some (.file old _ t0) =>
      if t != t0 || data != old then
        IO.FS.writeBinFile p data
        IO.setAccessRights p (rights mode)
    | .file data mode _, _ =>
      IO.FS.writeBinFile p data
      IO.setAccessRights p (rights mode)
    | _, _ => pure ()
  for (p, e) in before.entries do
    if !e.isDir && (after.get? p).isNone then
      let _ ← (IO.FS.removeFile p).toBaseIO

/-- The first number on the line of `text` that starts with `key`. -/
def numberAfter (text key : String) : Option Nat :=
  (text.splitOn "\n").findSome? fun line =>
    if line.startsWith key then
      let digits := (line.toList.drop key.length).dropWhile (· == ' ') |>.takeWhile Char.isDigit
      (String.ofList digits).toNat?
    else none

/-- The present instant: the boot time plus the uptime, to the hundredth of a second. -/
def wallClock : IO Time.Stamp := do
  let stat ← (IO.FS.readFile "/proc/stat").toBaseIO
  let up ← (IO.FS.readFile "/proc/uptime").toBaseIO
  match stat, up with
  | .ok s, .ok u =>
    let word := ((u.splitOn " ").head?).getD ""
    let whole := (((word.splitOn ".").head?).getD "").toNat?.getD 0
    let hundredths := ((((word.splitOn ".")[1]?).getD "0").toList.take 2 |> String.ofList).toNat?.getD 0
    let boot := (numberAfter s "btime").getD 0
    return Time.Stamp.addMs ⟨boot, 0⟩ (whole * 1000 + hundredths * 10)
  | _, _ => return World.epoch

/-- Run the command line `args` on the machine. -/
def run (args : List String) : IO UInt32 := do
  let home := (← IO.getEnv "HOME").getD ""
  let deckHome ← IO.getEnv "DECKHAND_HOME"
  let envProfile ← IO.getEnv "DECKHAND_PROFILE"
  let cwd := (← IO.currentDir).toString
  let profile := match Cli.read envProfile args with
    | .run inv => inv.profile.getD Registry.defaultProfile
    | _ => Registry.defaultProfile
  let deck := deckHome.getD (Path.join home ".deckhand")
  let files ← loadFiles (touched cwd home deck profile args)
  let now ← wallClock
  let world : World := {
    files, origin := now, issued := (now.secs.toNat * 1000 + now.nanos / 1000000) % Nat.pow 2 40,
    programs := { fallback := { code := 127 } },
    env := { home, deckHome, profile := envProfile, cwd, shell := ← IO.getEnv "SHELL" } }
  match EStateM.run (Cli.runProgram args) world with
  | EStateM.Result.ok (out, err, code) w =>
    IO.print out
    IO.eprint err
    storeFiles files w.files
    return code.toUInt32
  | EStateM.Result.error e w =>
    IO.eprint (Cli.errorReport e)
    storeFiles files w.files
    return 1

end AgentDeck.Program

/-- The program's entry point. -/
def main (args : List String) : IO UInt32 := AgentDeck.Program.run args
