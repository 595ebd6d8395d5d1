import WordSlot.Command.Line
import WordSlot.Host
import WordSlot.Version

/-!
# Running a command

One command line, as a process of its own runs it. The store's faults end it with an error line and exit code 1, rejected calls
with exit code 2. What is printed to the error stream goes through the journal's console, so that log lines and error lines
keep their order.
-/

namespace WordSlot

/-- How a command line ended: with a page on one of the streams, or with a command's output. -/
inductive Outcome where
  | page (page : Page) (onOutput : Bool) (exit : Nat)
  | finished (exit : Nat) (output errors : Text)

namespace Command

/-- What a command prints to its output, and its exit code. -/
structure Printed where
  output : Text
  exit : Nat

/-- The options of a run, with those that come from the environment. -/
structure Options where
  state : Option Path
  json : Bool

/-- A line on the error stream. -/
def errorLine (text : Text) : Act Surroundings Unit :=
  modify fun s => { s with journal := s.journal.write s.journal.current ("Error: " ++ text ++ "\n") }

/-- The JSON text of an outcome on one line, keys in ascending order. -/
def envelopeText (e : Envelope) : Except Fault String := Json.write .line e.document.sortKeys

/-- Prints an outcome: as JSON if so asked, else the given text if the call went well and its error if it was rejected. -/
def printEnvelope (json : Bool) (e : Envelope) (text : Text) : Act Surroundings Printed := do
  let output : Text ← if json then do pure ((← Act.ofExcept (envelopeText e)) ++ "\n" : String)
    else pure (if e.ok then text else .empty)
  if e.ok then pure ⟨output, 0⟩
  else do
    if !json then errorLine ((e.error.map (·.message)).getD "call rejected")
    pure ⟨output, 2⟩

/-- Runs a call on the backend of the state path and prints its outcome; a fault that the store reports is an error line. -/
def dispatch (options : Options) (act : Act Site Envelope) (print : Envelope → Act Surroundings Printed) :
    Act Surroundings Printed := do
  let result : Except StoreFault Envelope ← tryCatch
    (do
      let backend ← Surroundings.openBackend (match options.state with | some p => .path p | none => .none)
      let envelope ← ExceptT.mk fun around =>
        let (result, site) := act.perform ⟨around, backend⟩
        (result, site.around)
      pure (.ok envelope))
    fun
      | .store f => pure (.error f)
      | f => throw f
  match result with
  | .ok envelope => print envelope
  | .error f => do
    errorLine f.message
    pure ⟨"", 1⟩

/-- The word, in decimal. -/
def returnedText (e : Envelope) : String :=
  match e.returned with
  | some n => decimalNat n ++ "\n"
  | none => "None\n"

/-- Hex text without its mark, in either case. -/
def unmarked (text : Text) : Text :=
  match text.codes with
  | 0x30 :: 0x78 :: rest => ⟨rest⟩
  | 0x30 :: 0x58 :: rest => ⟨rest⟩
  | _ => text

/-- Carries out raw calldata; the outcome is always printed as JSON unless it is a rejection in plain text. -/
def runCalldata (options : Options) (text : Text) : Act Surroundings Printed :=
  match (unmarked text).chars?.bind readHex with
  | none => do
    errorLine "calldata must be hex"
    pure ⟨"", 2⟩
  | some data => dispatch options (Site.callData (.bytes data)) fun e => printEnvelope (options.json || e.ok) e ""

/-- How documents are laid out. -/
def layout (options : Options) : Json.Style := if options.json then .line else .lines

/-- The call surface with signatures and selectors. -/
def abiDocument : Except Fault Value := do
  let methods ← Manifest.methods Manifest.packaged
  let field (key : Text) : Value :=
    match Manifest.packaged with
    | .dict fields => (Value.field? key fields).getD .none
    | _ => .none
  pure (.record [("name", field "name"), ("version", field "version"),
    ("functions", .list (← methods.mapM fun m => do pure (.record (← m.document))))])

/-- The version and the configuration in effect. -/
def infoDocument (options : Options) (config : Config) : Value :=
  let shown := Fields.put "state_path" (match options.state with | some p => .text p.text | none => .none) config.document
  .record [("version", .text Version.program), ("config", .record shown)]

/-- A document as a command prints it. -/
def printDocument (options : Options) (document : Value) : Act Surroundings Printed := do
  pure ⟨(← Act.ofExcept (Json.write (layout options) document)) ++ "\n", 0⟩

/-- Runs a command with its arguments. -/
def runCommand (options : Options) : CommandName → List Text → Act Surroundings Printed
  | .get, _ => dispatch options (Site.call (.text "get") (.list [])) fun e => printEnvelope options.json e (returnedText e)
  | .set, arguments =>
    dispatch options (Site.call (.text "set") (.list (arguments.map .text))) fun e => printEnvelope options.json e "ok\n"
  | .call, arguments => runCalldata options (arguments.headD .empty)
  | .abi, _ => do printDocument options (← Act.ofExcept abiDocument)
  | .info, _ => do printDocument options (infoDocument options (← Surroundings.config)).sortKeys

/-- The state path as given by option or, without one, by the environment. -/
def givenState (given : GlobalOptions) (env : Environment) : Option Path :=
  (given.state <|> env.nonEmpty? (Config.settingName "STATE")).map Path.ofText

/-- A state path that is given has to be one that the file system can be asked for. -/
def checkState (given : GlobalOptions) : Act Surroundings Unit := do
  match givenState given (← get).setting.env with
  | some p => Surroundings.askable p
  | none => pure ()

/-- Reads the configuration and sets up the journal for a run. -/
def prepare (given : GlobalOptions) : Act Surroundings Options := do
  let env := (← get).setting.env
  let config ← Surroundings.config
  let state := givenState given env <|> config.statePath
  let level := match given.logLevel with
    | some level => level
    | none => (env.nonEmpty? (Config.settingName "LOG_LEVEL")).getD .empty
  Surroundings.configureLog (config.logFormat.map (· == .json)) (.text (if level.isEmpty then config.logLevel else level)) false
    .none
  let s ← get
  let context ← Act.ofExcept (s.journal.context.bind
    [("component", .text "cli"), ("state", .text (match state with | some p => p.text | none => "memory"))])
  set { s with journal := { s.journal with context } }
  pure ⟨state, given.json⟩

/-- The outcome of a page: help goes to the output, a usage error to the error stream. -/
def pageOutcome : Page → Outcome
  | .help => .page .help true 0
  | .usage => .page .usage false 2

/-- Runs a command line in surroundings where nothing has been read or logged. -/
def runFresh (words : List Text) : Act Surroundings Outcome :=
  if words.isEmpty then pure (.page .help true 2)
  else match CommandLine.readOptions words with
    | .error page => pure (pageOutcome page)
    | .ok (given, rest) => do
      checkState given
      match CommandLine.readCommand rest with
      | .error page => pure (pageOutcome page)
      | .ok (command, rest) => do
        let options ← prepare given
        match CommandLine.readArguments command rest with
        | .error page => pure (pageOutcome page)
        | .ok arguments => do
          let printed ← runCommand options command arguments
          let journal := (← get).journal
          pure (.finished printed.exit printed.output (journal.written journal.current))

/-- Runs a command line as a process of its own: of what it changes only the files stay. -/
def run (words : List Text) (s : Surroundings) : Except Fault Outcome × Surroundings :=
  let (result, after) := (runFresh words).perform { s with setting := s.setting.forget, journal := .fresh }
  (result, { s with files := after.files })

end Command

end WordSlot
