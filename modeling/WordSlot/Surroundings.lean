import WordSlot.Files.Replace
import WordSlot.Log.Journal
import WordSlot.Text.Utf8

/-!
# Surroundings

What the parts of the program share: the environment with its configuration, the files, and the journal. Actions read and
change it, and what they changed stays changed when they fail.
-/

namespace WordSlot

/-- An action on a state that can fail; the state after it is there either way. -/
abbrev Act (σ α : Type) := ExceptT Fault (StateM σ) α

namespace Act

/-- An action that only computes. -/
def ofExcept {σ α : Type} (x : Except Fault α) : Act σ α := ExceptT.mk (pure x)

/-- Runs an action on a part of a state. -/
def onPart {σ τ α : Type} (part : σ → τ) (whole : τ → σ → σ) (act : Act τ α) : Act σ α :=
  ExceptT.mk fun s =>
    let (result, t) := act.run (part s)
    (result, whole t s)

/-- The result of an action from a state, and the state after it. -/
def perform {σ α : Type} (act : Act σ α) (s : σ) : Except Fault α × σ := act.run s

end Act

/-- What the program stands in. -/
structure Surroundings where
  setting : Setting
  files : FileTree
  medium : Medium
  journal : Journal
  stamp : Stamp

namespace Surroundings

/-- The configuration, read when it is first needed. -/
def config : Act Surroundings Config := ExceptT.mk fun s =>
  let (result, setting) := s.setting.load
  (result, { s with setting })

/-- A path with the tilde at its front replaced. -/
def expand (p : Path) : Act Surroundings Path := do
  Act.ofExcept ((← get).setting.env.expand p)

/-- Writes a line of one handler; a record that cannot be written is dropped. A console stream takes every text, also one with halves
of surrogate pairs in it, while a file takes only what has UTF-8. -/
def deliver (r : LogRecord) (s : Surroundings) (h : Handler) : Surroundings :=
  match r.line s.stamp h.format s.journal.context.fields with
  | .error _ => s
  | .ok line =>
    match h.sink with
    | .stream index => { s with journal := s.journal.write index (line ++ "\n") }
    | .file path =>
      match Utf8.encodeText? (line ++ "\n") with
      | some content => { s with files := s.files.append path content }
      | none => s

/-- Hands a logger's record to the handlers it reaches. -/
def emit (logger : Text) (level : Int) (r : LogRecord) (s : Surroundings) : Surroundings :=
  (s.journal.reached logger level).foldl (deliver r) s

/-- Logs a message that its logger passes on. -/
def record (logger : Text) (level : Int) (message : Value) (args : List Value) (extras : Fields) : Act Surroundings Unit := do
  let r ← Act.ofExcept (do (← LogRecord.make logger level message args).withExtras extras)
  modify (·.emit logger level r)

/-- Logs a message from inside the package. Extra fields are looked at only if the logger passes on the level. -/
def log (logger : Text) (level : Int) (message : Value) (args : List Value) (extras : Fields) : Act Surroundings Unit := do
  if (← get).journal.passes logger level then
    record logger level message args extras

/-- Logs a message from any logger, which is known from then on. What was found about it and the level before counts until the
journal is configured again, even if it has come to stand below another logger since. -/
def logFrom (logger : Text) (level : Int) (message : Value) (args : List Value) (extras : Fields) : Act Surroundings Unit := do
  modify fun s => { s with journal := (s.journal.introduce logger).settle logger level }
  if (← get).journal.decision logger level then
    record logger level message args extras

/-- The path that a value gives. -/
def pathOf : Value → Except Fault Path
  | .text t => pure (Path.ofText t)
  | .path p => pure p
  | _ => throw (.misuse .wrongKind)

/-- A path that the file system can be asked for. -/
def askable (p : Path) : Act Surroundings Unit :=
  match p.flaw? with
  | some flaw => throw (.ofPathFlaw flaw)
  | none => pure ()

/-- Makes the directory of a path and those above it. -/
def makeParents (p : Path) : Act Surroundings Unit := do
  askable p.parent
  let s ← get
  let (result, files) := s.files.makeParents p
  set { s with files }
  match result with
  | .error f => throw (.file f)
  | .ok () => pure ()

/-- Whether a handler writes to the file at a location. -/
def writesTo (s : Surroundings) (l : Location) (h : Handler) : Bool :=
  match h.sink with
  | .file p =>
    match s.files.locate p with
    | .ok found => found = l
    | .error _ => false
  | .stream _ => false

/-- The surroundings once the file at a path is no longer the one that was opened there: a handler that wrote to it is done with. -/
def detached (s : Surroundings) (p : Path) : Surroundings :=
  match s.files.locate p with
  | .ok l => { s with journal := { s.journal with handlers := s.journal.handlers.filter fun h => !s.writesTo l h } }
  | .error _ => s

/-- Removes a file or an empty directory. A handler that wrote to the file is done with, also if another one takes its place. -/
def remove (p : Path) : Act Surroundings Unit := do
  askable p
  let s ← get
  match s.files.remove p with
  | .ok files => set { s.detached p with files }
  | .error c => throw (.file ⟨c, p.text, none⟩)

/-- Makes the journal's handler for a file: the file and its directory are made if they are missing. -/
def openLogFile (path : Value) : Act Surroundings Path := do
  let p ← expand (← Act.ofExcept (pathOf path))
  makeParents p
  askable p
  let s ← get
  match s.files.read p with
  | .ok _ => pure p
  | .error .notFound =>
    match s.files.write p [] with
    | .ok files => set { s with files }; pure p
    | .error c => throw (.file ⟨c, p.text, none⟩)
  | .error c => throw (.file ⟨c, p.text, none⟩)

/-- Configures the journal: a level, a new console stream, and perhaps a file that takes JSON lines besides. The console is
configured before the file is opened. -/
def configureLog (json : Option Bool) (level : Value) (terminal : Bool) (file : Value) : Act Surroundings Unit := do
  let level := ((← Act.ofExcept (LogLevel.ofValue level)).toInt?).getD 0
  let s ← get
  let env := s.setting.env
  let format := if decideJson env json terminal then .json else LineFormat.text (supportsColour env terminal)
  let console : Handler := ⟨level, format, .stream s.journal.streams.length⟩
  set { s with journal :=
    { s.journal with level, handlers := [console], streams := s.journal.streams ++ [[]], decisions := [] } }
  if file.holds then
    let path ← openLogFile file
    modify fun s => { s with journal := { s.journal with handlers := [console, ⟨level, .json, .file path⟩] } }

end Surroundings

end WordSlot
