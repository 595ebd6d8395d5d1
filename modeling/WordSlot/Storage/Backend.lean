import WordSlot.Storage.Check
import WordSlot.Storage.StateFile
import WordSlot.Surroundings

/-!
# Backends

What holds the slots: memory, a state file that is read when it is first needed and written anew on every change, or a single
cell that takes and gives anything under any key. Keys and values are checked before anything else is touched. A change of a
state file is remembered only once the file has been replaced.
-/

namespace WordSlot

/-- A backend with what it holds; a file backend holds the slots once it has read them. -/
inductive Backend where
  | memory (slots : Slots)
  | file (path : Path) (slots : Option Slots)
  | cell (value : Value)

namespace Backend

/-- A memory backend without slots. -/
def newMemory : Backend := .memory []

/-- A file backend that has read nothing. -/
def newFile (path : Path) : Backend := .file path none

/-- The name of a backend's kind. -/
def kind : Backend → String
  | .memory _ => "MemoryBackend"
  | .file _ _ => "FileBackend"
  | .cell _ => "Custom"

end Backend

/-- A backend in its surroundings. -/
structure Site where
  around : Surroundings
  backend : Backend

namespace Site

/-- Runs an action on the surroundings. -/
def aroundAct {α : Type} (act : Act Surroundings α) : Act Site α :=
  act.onPart (·.around) fun around s => { s with around }

/-- The logger of the backends. -/
def storageLogger : Text := "simple_storage.storage"

/-- A key that the backends take. -/
def admitKey (key : Value) : Act Site Bytes := do
  let b ← Act.ofExcept (keyBytes key)
  let config ← aroundAct Surroundings.config
  Act.ofExcept (checkKeyLength config.maxKeyBytes b)

/-- A state-file fault. -/
def refuseState {α : Type} (path : Path) (cause : StateFileCause) : Act Site α :=
  throw (.store (.stateFile ⟨path.text, cause⟩))

/-- Remembers the slots of a state file. -/
def remember (path : Path) (slots : Slots) : Act Site Unit := modify fun s => { s with backend := .file path (some slots) }

/-- The slots of a state file: those remembered, none if there is no file, else those it holds. -/
def loadSlots (path : Path) (held : Option Slots) : Act Site Slots :=
  match held with
  | some slots => pure slots
  | none => do
    let files := (← get).around.files
    match files.has path with
    | .error c => throw (.file ⟨c, path.text, none⟩)
    | .ok false => do
      aroundAct (Surroundings.log storageLogger LogLevel.debug (.text "state file absent, starting empty") []
        [("path", .path path)])
      remember path []
      pure []
    | .ok true =>
      match files.read path with
      | .error c => refuseState path (.unreadable (FileFault.text ⟨c, path.text, none⟩))
      | .ok content =>
        match StateFile.decode content with
        | .error .tooDeep => throw (.misuse .tooDeep)
        | .error (.unusable cause) => refuseState path cause
        | .ok slots => do
          remember path slots
          aroundAct (Surroundings.log storageLogger LogLevel.debug (.text "state file loaded") []
            [("path", .path path), ("slots", .int slots.length)])
          pure slots

/-- A path that a file can be made at. If only its name is flawed, its directory is made before that shows. -/
def requireName (path : Path) : Act Site Unit := do
  match path.flaw? with
  | none => pure ()
  | some flaw => do
    if path.parent.flaw?.isNone then
      let s ← get
      let (result, files) := s.around.files.prepareParents s.around.medium path
      set { s with around := { s.around with files } }
      match result with
      | .ok () => pure ()
      | .error f => refuseState path (.unwritable f.text)
    throw (.ofPathFlaw flaw)

/-- Replaces a state file by one with the given slots. A log that was written to the old file is not written to the new one. -/
def flush (path : Path) (slots : Slots) : Act Site Unit := do
  requireName path
  let s ← get
  let (result, files) := s.around.files.replace s.around.medium path (StateFile.encode slots)
  set { s with around := { s.around with files } }
  match result with
  | .ok () => modify fun s => { s with around := s.around.detached path }
  | .error f => refuseState path (.unwritable f.text)

/-- The value under a key, or nothing. -/
def getSlot (key : Value) : Act Site Value := do
  let found (slots : Slots) (key : Bytes) : Value :=
    match slots.get? key with
    | some b => .bytes b
    | none => .none
  match (← get).backend with
  | .cell value => pure value
  | .memory slots => do pure (found slots (← admitKey key))
  | .file path held => do
    let key ← admitKey key
    pure (found (← loadSlots path held) key)

/-- Puts a value under a key. -/
def setSlot (key value : Value) : Act Site Unit := do
  match (← get).backend with
  | .cell _ => modify fun s => { s with backend := .cell value }
  | .memory slots => do
    let key ← admitKey key
    let value ← Act.ofExcept (checkValue value)
    modify fun s => { s with backend := .memory (slots.put key value) }
  | .file path held => do
    let key ← admitKey key
    let value ← Act.ofExcept (checkValue value)
    let slots ← loadSlots path held
    flush path (slots.put key value)
    remember path (slots.put key value)

end Site

namespace Surroundings

/-- A file backend for a path, with the tilde at its front replaced. -/
def openFile (path : Value) : Act Surroundings Backend := do
  pure (.newFile (← expand (← Act.ofExcept (pathOf path))))

/-- A backend for a state path, or for the configured one if none is given; memory if there is none or it is empty. -/
def openBackend (path : Value) : Act Surroundings Backend := do
  let path ← match path with
    | .none => do
      match (← config).statePath with
      | some p => pure (.path p)
      | none => pure .none
    | path => pure path
  if path.holds then openFile path else pure .newMemory

end Surroundings

end WordSlot
