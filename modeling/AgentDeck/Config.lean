import AgentDeck.Cache.Basic
import AgentDeck.Toml.Read
import AgentDeck.Json.Check
import AgentDeck.Error
import AgentDeck.Fs.Path

/-!
Settings of the dashboard, read from `config.toml` under its home directory.

Every setting has a default, so a missing or partial file is fine; unknown keys are
ignored. Times are whole milliseconds or seconds as the key's name says. The update loop
never ticks faster than every 10 ms. A cache field's lifetime is its override when the file
sets one, else the field's default. Hook events go to the configured directory, else to
`hooks/events` under the home directory.
-/

namespace AgentDeck

/-- Timings of the update loop. -/
structure EngineConfig where
  tickMs : Nat := 250
  previewDebounceMs : Nat := 150
  navigationSettleMs : Nat := 300
  userActivityWindowMs : Nat := 2000
  statusRefreshMs : Nat := 2000
  bannerSecs : Nat := 5
  uiPersistEveryTicks : Nat := 5
  pruneSecs : Nat := 20
  undoLimit : Nat := 10
  previewLines : Nat := 120
  deriving DecidableEq, Repr, Inhabited

/-- Lifetime overrides of the cache fields. -/
structure CacheConfig where
  previewTtlMs : Option Nat := none
  worktreeDirtyTtlSecs : Option Nat := none
  worktreeRemoteTtlSecs : Option Nat := none
  reviewStatusTtlSecs : Option Nat := none
  deriving DecidableEq, Repr, Inhabited

/-- Timings of the file watchers. -/
structure WatcherConfig where
  storageDebounceMs : Nat := 100
  selfWriteWindowMs : Nat := 500
  statusDebounceMs : Nat := 500
  statusChannelCapacity : Nat := 10
  statusDeleteGraceMs : Nat := 1000
  statusStaleSecs : Nat := 600
  deriving DecidableEq, Repr, Inhabited

/-- Upkeep of the pane logs. -/
structure LogConfig where
  enabled : Bool := true
  maxBytes : Nat := 10 * 1024 * 1024
  keepBytes : Nat := 1024 * 1024
  checkSecs : Nat := 10
  maintenanceSecs : Nat := 300
  deriving DecidableEq, Repr, Inhabited

/-- Where hook events go. -/
structure HooksConfig where
  eventsDir : Option String := none
  deriving DecidableEq, Repr, Inhabited

/-- All settings. -/
structure Config where
  engine : EngineConfig := {}
  cache : CacheConfig := {}
  watcher : WatcherConfig := {}
  logs : LogConfig := {}
  hooks : HooksConfig := {}
  deriving DecidableEq, Repr, Inhabited

/-- The tick interval in milliseconds: never below 10. -/
def EngineConfig.tickMsFloor (e : EngineConfig) : Nat := max e.tickMs 10

/-- The lifetime of a cache field in milliseconds. -/
def CacheConfig.ttlMs (c : CacheConfig) (f : Field) : Nat :=
  let custom : Option Nat :=
    match f with
    | .preview => c.previewTtlMs
    | .worktreeDirty => c.worktreeDirtyTtlSecs.map (· * 1000)
    | .worktreeRemote => c.worktreeRemoteTtlSecs.map (· * 1000)
    | .reviewStatus => c.reviewStatusTtlSecs.map (· * 1000)
  custom.getD f.defaultTtlMs

/-- The directory hook events go to, given the home directory of the dashboard. -/
def HooksConfig.resolvedEventsDir (h : HooksConfig) (home : String) : String :=
  h.eventsDir.getD (Path.join (Path.join home "hooks") "events")

namespace Config

/-- An unsigned 64-bit setting. -/
def u64 : Json.Shape := .unsigned "u64" Json.u64Max

/-- An unsigned machine-word setting. -/
def usize : Json.Shape := .unsigned "usize" Json.u64Max

/-- A record whose missing fields take the defaults in `dflt`. -/
def defaulted (name : String) (fields : List (String × Json.Shape)) (dflt : Json) : Json.Shape :=
  .record name (fields.map fun (k, s) => (k, s, some ((dflt.field? k).getD .null)))

/-- The engine section as JSON. -/
def engineJson (e : EngineConfig) : Json :=
  .obj [("tick_ms", .ofNat e.tickMs), ("preview_debounce_ms", .ofNat e.previewDebounceMs),
    ("navigation_settle_ms", .ofNat e.navigationSettleMs),
    ("user_activity_window_ms", .ofNat e.userActivityWindowMs),
    ("status_refresh_ms", .ofNat e.statusRefreshMs), ("banner_secs", .ofNat e.bannerSecs),
    ("ui_persist_every_ticks", .ofNat e.uiPersistEveryTicks), ("prune_secs", .ofNat e.pruneSecs),
    ("undo_limit", .ofNat e.undoLimit), ("preview_lines", .ofNat e.previewLines)]

/-- The cache section as JSON. -/
def cacheJson (c : CacheConfig) : Json :=
  .obj [("preview_ttl_ms", Json.ofOption .ofNat c.previewTtlMs),
    ("worktree_dirty_ttl_secs", Json.ofOption .ofNat c.worktreeDirtyTtlSecs),
    ("worktree_remote_ttl_secs", Json.ofOption .ofNat c.worktreeRemoteTtlSecs),
    ("review_status_ttl_secs", Json.ofOption .ofNat c.reviewStatusTtlSecs)]

/-- The watcher section as JSON. -/
def watcherJson (w : WatcherConfig) : Json :=
  .obj [("storage_debounce_ms", .ofNat w.storageDebounceMs),
    ("self_write_window_ms", .ofNat w.selfWriteWindowMs),
    ("status_debounce_ms", .ofNat w.statusDebounceMs),
    ("status_channel_capacity", .ofNat w.statusChannelCapacity),
    ("status_delete_grace_ms", .ofNat w.statusDeleteGraceMs),
    ("status_stale_secs", .ofNat w.statusStaleSecs)]

/-- The logs section as JSON. -/
def logsJson (l : LogConfig) : Json :=
  .obj [("enabled", .bool l.enabled), ("max_bytes", .ofNat l.maxBytes),
    ("keep_bytes", .ofNat l.keepBytes), ("check_secs", .ofNat l.checkSecs),
    ("maintenance_secs", .ofNat l.maintenanceSecs)]

/-- The hooks section as JSON. -/
def hooksJson (h : HooksConfig) : Json := .obj [("events_dir", Json.ofOption .str h.eventsDir)]

/-- All settings as JSON. -/
def toJson (c : Config) : Json :=
  .obj [("engine", engineJson c.engine), ("cache", cacheJson c.cache),
    ("watcher", watcherJson c.watcher), ("logs", logsJson c.logs), ("hooks", hooksJson c.hooks)]

/-- Stored form of the engine section. -/
def engineShape : Json.Shape :=
  defaulted "EngineConfig"
    [("tick_ms", u64), ("preview_debounce_ms", u64), ("navigation_settle_ms", u64),
     ("user_activity_window_ms", u64), ("status_refresh_ms", u64), ("banner_secs", u64),
     ("ui_persist_every_ticks", u64), ("prune_secs", u64), ("undo_limit", usize),
     ("preview_lines", usize)]
    (engineJson {})

/-- Stored form of the cache section. -/
def cacheShape : Json.Shape :=
  defaulted "CacheConfig"
    [("preview_ttl_ms", .opt u64), ("worktree_dirty_ttl_secs", .opt u64),
     ("worktree_remote_ttl_secs", .opt u64), ("review_status_ttl_secs", .opt u64)]
    (cacheJson {})

/-- Stored form of the watcher section. -/
def watcherShape : Json.Shape :=
  defaulted "WatcherConfig"
    [("storage_debounce_ms", u64), ("self_write_window_ms", u64), ("status_debounce_ms", u64),
     ("status_channel_capacity", usize), ("status_delete_grace_ms", u64),
     ("status_stale_secs", u64)]
    (watcherJson {})

/-- Stored form of the logs section. -/
def logsShape : Json.Shape :=
  defaulted "LogConfig"
    [("enabled", .flag), ("max_bytes", u64), ("keep_bytes", u64), ("check_secs", u64),
     ("maintenance_secs", u64)]
    (logsJson {})

/-- Stored form of the hooks section. -/
def hooksShape : Json.Shape :=
  defaulted "HooksConfig" [("events_dir", .opt (.text "path string"))] (hooksJson {})

/-- Stored form of all settings. -/
def shape : Json.Shape :=
  .record "ConfigFile"
    [("engine", engineShape, some (engineJson {})), ("cache", cacheShape, some (cacheJson {})),
     ("watcher", watcherShape, some (watcherJson {})), ("logs", logsShape, some (logsJson {})),
     ("hooks", hooksShape, some (hooksJson {}))]

/-- A number member. -/
def natAt (j : Json) (k : String) : Option Nat := (j.field? k) >>= Json.asNat?

/-- A number member that may be null. -/
def optNatAt (j : Json) (k : String) : Option (Option Nat) :=
  match j.field? k with
  | some .null => some none
  | some v => v.asNat?.map some
  | none => none

/-- The engine section of a JSON object of its shape. -/
def engineOfJson? (j : Json) : Option EngineConfig := do
  return {
    tickMs := ← natAt j "tick_ms", previewDebounceMs := ← natAt j "preview_debounce_ms",
    navigationSettleMs := ← natAt j "navigation_settle_ms",
    userActivityWindowMs := ← natAt j "user_activity_window_ms",
    statusRefreshMs := ← natAt j "status_refresh_ms", bannerSecs := ← natAt j "banner_secs",
    uiPersistEveryTicks := ← natAt j "ui_persist_every_ticks",
    pruneSecs := ← natAt j "prune_secs", undoLimit := ← natAt j "undo_limit",
    previewLines := ← natAt j "preview_lines" }

/-- The cache section of a JSON object of its shape. -/
def cacheOfJson? (j : Json) : Option CacheConfig := do
  return {
    previewTtlMs := ← optNatAt j "preview_ttl_ms",
    worktreeDirtyTtlSecs := ← optNatAt j "worktree_dirty_ttl_secs",
    worktreeRemoteTtlSecs := ← optNatAt j "worktree_remote_ttl_secs",
    reviewStatusTtlSecs := ← optNatAt j "review_status_ttl_secs" }

/-- The watcher section of a JSON object of its shape. -/
def watcherOfJson? (j : Json) : Option WatcherConfig := do
  return {
    storageDebounceMs := ← natAt j "storage_debounce_ms",
    selfWriteWindowMs := ← natAt j "self_write_window_ms",
    statusDebounceMs := ← natAt j "status_debounce_ms",
    statusChannelCapacity := ← natAt j "status_channel_capacity",
    statusDeleteGraceMs := ← natAt j "status_delete_grace_ms",
    statusStaleSecs := ← natAt j "status_stale_secs" }

/-- The logs section of a JSON object of its shape. -/
def logsOfJson? (j : Json) : Option LogConfig := do
  return {
    enabled := ← (j.field? "enabled") >>= Json.asBool?, maxBytes := ← natAt j "max_bytes",
    keepBytes := ← natAt j "keep_bytes", checkSecs := ← natAt j "check_secs",
    maintenanceSecs := ← natAt j "maintenance_secs" }

/-- The hooks section of a JSON object of its shape. -/
def hooksOfJson? (j : Json) : Option HooksConfig := do
  match j.field? "events_dir" with
  | some .null => return {}
  | some (.str s) => return { eventsDir := some s }
  | _ => none

/-- The settings of a JSON object of their shape. -/
def ofJson? (j : Json) : Option Config := do
  return {
    engine := ← (j.field? "engine") >>= engineOfJson?,
    cache := ← (j.field? "cache") >>= cacheOfJson?,
    watcher := ← (j.field? "watcher") >>= watcherOfJson?,
    logs := ← (j.field? "logs") >>= logsOfJson?,
    hooks := ← (j.field? "hooks") >>= hooksOfJson? }

/-- Settings from a JSON value of their shape, or why it is not. -/
def ofValue (v : Json) : Except Json.ReadError Config := do
  let n ← Json.check shape v
  match ofJson? n with
  | some c => return c
  | none => throw { category := .mismatch, message := "invalid settings" }

/-- Settings from the text of `config.toml`. -/
def ofToml (text : String) : Except Error Config :=
  match Toml.parseJson text with
  | .error m => .error (.toml m)
  | .ok j =>
    match ofValue j with
    | .ok c => .ok c
    | .error e => .error (.toml e.message)

end Config

end AgentDeck
