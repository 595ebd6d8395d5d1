import Std.Time.DateTime.Timestamp
import WordSlot.Command.Run
import WordSlot.Log.Clock

/-!
# The command line program

Runs one command line against the real environment and files: what the command may look at is read into a file tree, the
command is run on it, and what it changed is written back.
-/

namespace WordSlot

namespace Program

/-- The help page. -/
def helpPage : String :=
  "Usage: simple-storage [OPTIONS] COMMAND [ARGS]...\n\n" ++
  "  Read and write a single uint256 storage slot.\n\n" ++
  "Options:\n" ++
  "  --state PATH       Path to the JSON state file\n" ++
  "  --json             Output the JSON result envelope\n" ++
  "  --log-level LEVEL  Log level (DEBUG, INFO, WARNING, ERROR)\n" ++
  "  --help             Show this message and exit.\n\n" ++
  "Commands:\n" ++
  "  get   Print the stored value (0 if nothing has been set).\n" ++
  "  set   Replace the stored value.\n" ++
  "  call  Dispatch raw calldata and print the result envelope.\n" ++
  "  abi   Print the ValueStore ABI with canonical signatures and selectors.\n" ++
  "  info  Print version and effective configuration.\n"

/-- The environment variables that the program looks at. -/
def watched : List String :=
  "HOME" :: "NO_COLOR" :: ["STATE", "LOG_LEVEL", "LOG_FORMAT", "MAX_CALLDATA_BYTES", "MAX_KEY_BYTES"].map Config.settingName

/-- Reads the environment. -/
def readEnvironment : IO Environment := do
  let found ← watched.filterMapM fun name => do
    return (← IO.getEnv name).map fun text => ((name : Text), (text : Text))
  return found

/-- The state path of a command line, as the command will open it. -/
def statePath? (env : Environment) (words : List Text) : Option Path :=
  match CommandLine.readOptions words with
  | .error _ => none
  | .ok (given, _) => (Command.givenState given env).bind fun p => p.expandHome? env.home?

/-- The name under which the system knows a path. -/
def systemName (p : Path) : String := p.text.string?.getD ""

/-- What stands at a path. -/
def readEntry (p : Path) : IO (Option FileEntry) := do
  try
    return some (.file (← IO.FS.readBinFile (systemName p)).toList)
  catch e =>
    match e with
    | .inappropriateType _ code _ => return if code == 21 then some .directory else none
    | _ => return none

/-- Reads the entries at a path and at the paths above it into a tree. -/
def readEntries : Nat → Path → FileTree → IO FileTree
  | 0, _, t => return t
  | above + 1, p, t => do
    let t ← readEntries above p.parent t
    match t.locate p, ← readEntry p with
    | .ok l, some e => return t.put l e
    | _, _ => return t

/-- Writes back what a command changed at and above a path. -/
def writeBack (p : Path) (before after : FileTree) : IO Unit := do
  match after.read p with
  | .error _ => return
  | .ok content =>
    match before.read p with
    | .ok old => if old == content then return
    | .error _ => pure ()
    IO.FS.createDirAll (systemName p.parent)
    let temporary := systemName p ++ ".tmp"
    IO.FS.writeBinFile temporary ⟨content.toArray⟩
    IO.FS.rename temporary (systemName p)

/-- Prints an outcome and gives its exit code. -/
def printOutcome : Outcome → IO UInt32
  | .page _ onOutput exit => do
    if onOutput then IO.print helpPage else IO.eprint helpPage
    return UInt32.ofNat exit
  | .finished exit output errors => do
    IO.print (output.string?.getD "")
    IO.eprint (errors.string?.getD "")
    return UInt32.ofNat exit

/-- Runs a command line. -/
def run (args : List String) : IO UInt32 := do
  let words := args.map Text.ofString
  let env ← readEnvironment
  let path? := statePath? env words
  let before ← match path? with
    | some p => readEntries p.names.length p .empty
    | none => pure .empty
  let now ← Std.Time.Timestamp.now
  let thread := (← IO.getTID).toNat
  let stamp : Stamp := ⟨Clock.text now.toMillisecondsSinceUnixEpoch.val, thread, thread, Nat.pow 2 26⟩
  let medium := Medium.sound (← IO.currentDir).toString "XXXXXXXX"
  let (result, after) := Command.run words ⟨⟨env, none⟩, before, medium, .fresh, stamp⟩
  match result with
  | .error _ =>
    IO.eprintln "the command could not be run in this environment"
    return 1
  | .ok outcome =>
    match path? with
    | some p => writeBack p before after.files
    | none => pure ()
    printOutcome outcome

end Program

end WordSlot

/-- The entry point. -/
def main (args : List String) : IO UInt32 := WordSlot.Program.run args
