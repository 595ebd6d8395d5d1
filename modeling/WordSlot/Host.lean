import WordSlot.Abi.Calldata
import WordSlot.Store

/-!
# The host

The host takes calls by name or as calldata and carries them out on the store. What is wrong with a call itself comes back as a
rejection and leaves the word as it was; a fault of the backend goes through to the caller.
-/

namespace WordSlot

/-- The outcome of a call. -/
structure Envelope where
  ok : Bool
  function : Value
  returned : Option Nat
  returnData : Bytes
  error : Option Report

/-- The document of an outcome. -/
def envelopeDocument (ok function returned : Value) (returnHex : String) (error : Value) : Value :=
  .record [("ok", ok), ("function", function), ("return", returned), ("returnData", .text ("0x" ++ returnHex)),
    ("error", error)]

namespace Envelope

/-- An outcome as a document. -/
def document (e : Envelope) : Value :=
  envelopeDocument (.bool e.ok) e.function (match e.returned with | some n => .int n | none => .none) (hex e.returnData)
    (match e.error with | some r => r.document | none => .none)

/-- The fields that an outcome can be made of. -/
def fieldNames : List Text := ["ok", "function", "return_value", "return_data", "error"]

/-- The hex text of return data: bytes and doubles have one. -/
def returnHex : Value → Except Fault String
  | .bytes b | .buffer b => pure (hex b)
  | .real x => pure x.hexText
  | _ => throw (.misuse .missingField)

/-- The document of an outcome made of loose fields: two of them are needed, others than those named are a misuse, and return
data has to have a hex text. -/
def ofFields (fields : Fields) : Except Fault Value :=
  if fields.any fun f => !fieldNames.contains f.1 then throw (.misuse .wrongKind)
  else match fields.value? "ok", fields.value? "function" with
    | some ok, some function => do
      let hex ← returnHex ((fields.value? "return_data").getD (.bytes []))
      pure (envelopeDocument ok function ((fields.value? "return_value").getD .none) hex
        ((fields.value? "error").getD .none))
    | _, _ => throw (.misuse .wrongKind)

end Envelope

namespace Site

/-- The logger of the host. -/
def hostLogger : Text := "simple_storage.host"

/-- Carries out a method on the store; a value to set is the first argument. -/
def execute (m : Method) (args : List Value) : Act Site Envelope := do
  let value : Option Nat ←
    if m.name == "set" then
      match args with
      | [] => throw (.misuse .outOfBounds)
      | v :: _ => do setWord v; pure none
    else if m.name == "get" then do pure (some (← getWord))
    else throw (.abi (.notImplemented m.name))
  aroundAct (Surroundings.log hostLogger LogLevel.debug (.text "call applied") [] [("function", .text m.name)])
  let data ← Act.ofExcept (ReturnData.encode m (match value with | some n => .int n | none => .none))
  pure ⟨true, .text m.name, value, data, none⟩

/-- Carries out a method with its arguments in any value with parts, of which at most the first is looked at. -/
def executeAny (m : Method) : Value → Act Site Envelope
  | .list args | .tuple args => execute m args
  | args =>
    if m.name == "set" then do
      let first ← Act.ofExcept (do (← Buffer.ofValue args).cell 0)
      execute m [first]
    else execute m []

/-- The outcome of a call that is rejected for what it is. -/
def reject (function : Value) (f : StoreFault) : Act Site Envelope := do
  aroundAct (Surroundings.log hostLogger LogLevel.warning (.text "call rejected: %s") [.text f.message]
    [("code", .text f.family.code)])
  pure ⟨false, function, none, [], some f.report⟩

/-- Turns a fault about a value into a rejection; other faults go through. -/
def orReject (function : Value) (act : Act Site Envelope) : Act Site Envelope :=
  tryCatch act fun
    | .store f => if f.family.aboutValue then reject function f else throw (.store f)
    | f => throw f

/-- Checks the number of arguments and turns each into a number of its type. -/
def coerceArguments (m : Method) (args : Value) : Except Fault (List Nat) := do
  let values ← args.parts
  if values.length ≠ m.inputs.length then
    throw (.abi (.wrongArity m.signature m.inputs.length values.length))
  else Arguments.coerceAll ((m.inputs.map .type).zip values)

/-- A call by name with arguments of any kind. -/
def call (name args : Value) : Act Site Envelope := orReject name do
  let m ← Act.ofExcept (Manifest.lookup Manifest.packaged name)
  let numbers ← Act.ofExcept (coerceArguments m args)
  execute m (numbers.map fun (n : Nat) => .int n)

/-- A call as calldata. -/
def callData (data : Value) : Act Site Envelope := orReject .none do
  let data ← Act.ofExcept (Calldata.ofValue data)
  let config ← aroundAct Surroundings.config
  let (m, numbers) ← Act.ofExcept (Calldata.decode config.maxCalldataBytes Manifest.packaged data)
  execute m (numbers.map fun (n : Nat) => .int n)

/-- Sets the word to a caller's number; what is wrong with it goes through. -/
def hostSet (value : Value) : Act Site Unit := do
  let n ← Act.ofExcept (coerceUInt 256 value)
  setWord (.int n)

end Site

/-- A single call on a backend of its own, opened for a state path. -/
def Surroundings.runCall (name args statePath : Value) : Act Surroundings Envelope := do
  let backend ← openBackend statePath
  ExceptT.mk fun around =>
    let (result, site) := (Site.call name args).perform ⟨around, backend⟩
    (result, site.around)

end WordSlot
