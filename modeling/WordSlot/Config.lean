import WordSlot.Fault
import WordSlot.Text.Upper

/-!
# Configuration

Where the state lives, how the log is written and how large keys and calldata may be, read from the environment. A number out
of range is moved into it, and text that is no number leaves the default.
-/

namespace WordSlot

/-- Environment variables, the latest setting of a name first. -/
abbrev Environment := List (Text × Text)

namespace Environment

/-- The text of a variable. -/
def get? (env : Environment) (name : Text) : Option Text := env.lookup name

/-- Sets a variable. -/
def set (env : Environment) (name text : Text) : Environment := (name, text) :: env.filter (·.1 != name)

/-- Removes a variable. -/
def unset (env : Environment) (name : Text) : Environment := env.filter (·.1 != name)

/-- The text of a variable that is not empty. -/
def nonEmpty? (env : Environment) (name : Text) : Option Text := (env.get? name).filter (!·.isEmpty)

/-- A directory without the slashes at its end; the root if nothing is left. -/
def trimSlashes (dir : Text) : Text :=
  match trimEnd (· == 0x2f) dir.codes with
  | [] => "/"
  | codes => ⟨codes⟩

/-- The home directory of a user, where the empty name means the current one. -/
def home? (env : Environment) (user : Text) : Option Text :=
  if user.isEmpty then some (trimSlashes ((env.get? "HOME").getD "/root"))
  else if user = "root" then some "/root"
  else none

/-- A path with the tilde at its front replaced by a home directory; a misuse if there is no such home. -/
def expand (env : Environment) (p : Path) : Except Fault Path :=
  match p.expandHome? env.home? with
  | some p => pure p
  | none => throw (.misuse .unknownHome)

end Environment

/-- The two formats of log lines. -/
inductive LogFormat where
  | json
  | text
deriving DecidableEq

/-- The word for a log format. -/
def LogFormat.word : LogFormat → String
  | .json => "json"
  | .text => "text"

/-- The log format that a word names, in any case and with blanks around it. -/
def LogFormat.ofWord? (word : Text) : Option LogFormat :=
  if word.strip.asciiLower = "json" then some .json
  else if word.strip.asciiLower = "text" then some .text
  else none

/-- What the environment decides. -/
structure Config where
  statePath : Option Path
  logLevel : Text
  logFormat : Option LogFormat
  maxCalldataBytes : Nat
  maxKeyBytes : Nat
deriving DecidableEq

namespace Config

/-- The environment variable of a setting. -/
def settingName (name : String) : String := "SIMPLE_STORAGE_" ++ name

/-- A number from the environment, moved into its range; the default if there is none. -/
def limit (env : Environment) (name : String) (default low high : Nat) : Nat :=
  match ((env.get? (settingName name)).bind Text.chars?).bind Numeral.literal? with
  | some n => if n < low then low else if (high : Int) < n then high else n.toNat
  | none => default

/-- Reads the configuration; a state path in an unknown home is a misuse. -/
def ofEnvironment (env : Environment) : Except Fault Config := do
  let statePath ← match env.nonEmpty? (settingName "STATE") with
    | some raw => do pure (some (← env.expand (Path.ofText raw)))
    | none => pure none
  pure {
    statePath
    logLevel := ((env.nonEmpty? (settingName "LOG_LEVEL")).getD "WARNING").strip.upper
    logFormat := (env.get? (settingName "LOG_FORMAT")).bind LogFormat.ofWord?
    maxCalldataBytes := limit env "MAX_CALLDATA_BYTES" 1024 16 65536
    maxKeyBytes := limit env "MAX_KEY_BYTES" 64 1 256 }

/-- The configuration as a document. -/
def document (c : Config) : List (Text × Value) :=
  [("state_path", match c.statePath with | some p => .text p.text | none => .none),
   ("log_level", .text c.logLevel),
   ("log_format", match c.logFormat with | some f => .text f.word | none => .none),
   ("max_calldata_bytes", .int c.maxCalldataBytes),
   ("max_storage_key_bytes", .int c.maxKeyBytes)]

end Config

/-- The environment together with the configuration read from it, once there has been a need to read it. -/
structure Setting where
  env : Environment
  cached : Option Config

namespace Setting

/-- The configuration: the one read before, else the one the environment gives now, which is kept unless it is refused. -/
def load (s : Setting) : Except Fault Config × Setting :=
  match s.cached with
  | some c => (.ok c, s)
  | none =>
    match Config.ofEnvironment s.env with
    | .ok c => (.ok c, { s with cached := some c })
    | .error f => (.error f, s)

/-- Forgets the configuration that was read. -/
def forget (s : Setting) : Setting := { s with cached := none }

end Setting

end WordSlot
