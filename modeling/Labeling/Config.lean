import Labeling.Keyboard.Bindings
import Labeling.Json.Reader
import Labeling.Json.Printer

/-!
# Configuration

The settings of the engine and the file that holds them. A file states the version of
its format; a version newer than the one known is refused, and everything else that
is missing from a file takes its default.

* `Config.ofText` and `Config.toText` are the two directions of the file format;
* `ConfigFile` is the place of the file, with what it holds.
-/

namespace Labeling

/-! ## Settings -/

/-- How much is logged. -/
inductive LogLevel where
  | error
  | warn
  | info
  | debug
  | trace
  deriving DecidableEq, Repr

/-- The name of a level. -/
def LogLevel.name : LogLevel → String
  | .error => "error"
  | .warn => "warn"
  | .info => "info"
  | .debug => "debug"
  | .trace => "trace"

/-- The level of a name. -/
def LogLevel.ofName? : String → Option LogLevel
  | "error" => some .error
  | "warn" => some .warn
  | "info" => some .info
  | "debug" => some .debug
  | "trace" => some .trace
  | _ => none

/-- What happens to an answer that arrives after the item it was asked for has been
replaced. -/
inductive StalePolicy where
  /-- It is dropped. -/
  | discard
  /-- It is applied to whatever item is current. -/
  | apply
  deriving DecidableEq, Repr

/-- The name of a policy. -/
def StalePolicy.name : StalePolicy → String
  | .discard => "discard"
  | .apply => "apply"

/-- The policy of a name. -/
def StalePolicy.ofName? : String → Option StalePolicy
  | "discard" => some .discard
  | "apply" => some .apply
  | _ => none

/-- What the user prefers. -/
structure Preferences where
  logLevel : LogLevel
  /-- How long a request may take, in seconds. -/
  timeout : Nat
  stale : StalePolicy
  deriving DecidableEq, Repr

namespace Preferences

/-- The preferences of a user who has stated none. -/
def default : Preferences := ⟨.info, 30, .discard⟩

/-- Read preferences. -/
def read? {ν : Type} [Source ν] (v : ν) : Option Preferences := do
  let r ← Source.recordOf v 3
  return {
    logLevel := ← r.given 0 ["log_level"]
      (fun v => do LogLevel.ofName? (← Source.choice? v)) default.logLevel
    timeout := ← r.given 1 ["request_timeout_secs"] (Source.leaf Json.uint64?) default.timeout
    stale := ← r.given 2 ["stale_responses"]
      (fun v => do StalePolicy.ofName? (← Source.choice? v)) default.stale }

/-- Preferences as a record. -/
def toJson (p : Preferences) : Json :=
  .obj [("log_level", .str p.logLevel.name), ("request_timeout_secs", .nat p.timeout),
    ("stale_responses", .str p.stale.name)]

end Preferences

/-- The settings of the engine. -/
structure Config where
  /-- The version of the file format. -/
  version : Nat
  /-- Where the backend is. -/
  serverUrl : String
  preferences : Preferences
  bindings : KeyBindings
  deriving DecidableEq, Repr

/-- Why a configuration cannot be read. -/
inductive ConfigError where
  /-- The text is not a configuration. -/
  | malformed (detail : String)
  /-- The file is of a newer version than the one supported. -/
  | tooNew (version supported : Nat)
  deriving DecidableEq, Repr

/-- The text of an error. -/
def ConfigError.message : ConfigError → String
  | .malformed detail => "Failed to parse configuration: " ++ detail
  | .tooNew version supported =>
    "Configuration file version " ++ toString version ++
      " is newer than supported version " ++ toString supported

namespace Config

/-- The version of the file format that is written, and the newest that is read. -/
def currentVersion : Nat := 1

/-- The settings without a file. -/
def default : Config :=
  ⟨currentVersion, "http://localhost:8080", .default, .default⟩

/-- Read settings. Only the version must be given. -/
def read? {ν : Type} [Source ν] (v : ν) : Option Config := do
  let r ← Source.recordOf v 4
  return {
    version := ← r.required 0 "version" (Source.leaf Json.uint32?)
    serverUrl := ← r.given 1 ["server_url"] (Source.leaf Json.str?) default.serverUrl
    preferences := ← r.given 2 ["preferences"] Preferences.read? default.preferences
    bindings := ← r.given 3 ["keybindings"] KeyBindings.read? default.bindings }

/-- Settings as a record. -/
def toJson (c : Config) : Json :=
  .obj [("version", .nat c.version), ("server_url", .str c.serverUrl),
    ("preferences", c.preferences.toJson), ("keybindings", c.bindings.toJson)]

/-- The text of a configuration file. -/
def toText (c : Config) : String := c.toJson.pretty

/-- Read the text of a configuration file. -/
def ofText (text : String) : Except ConfigError Config :=
  match (Document.ofText? text).bind read? with
  | none => .error (.malformed Json.unreadable)
  | some c =>
    if currentVersion < c.version then .error (.tooNew c.version currentVersion) else .ok c

end Config

/-! ## The file -/

namespace ConfigFile

/-- Where the file is, below the user's configuration directory. -/
def path : String := "skylabel/skylabel-config.json"

/-- The settings a file holds: none if there is no file or it cannot be read. -/
def load (content : Option String) : Option Config :=
  match content with
  | none => none
  | some text => (Config.ofText text).toOption

/-- What the file holds once settings are saved. -/
def save (c : Config) : Option String := some c.toText

end ConfigFile

end Labeling
