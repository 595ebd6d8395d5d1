import WordSlot.Abi.Buffer
import WordSlot.Abi.Manifest

/-!
# Calldata and return data

Calldata is a method's selector followed by its arguments, and nothing else. Return data is an argument list with the one value
that a method gives, or an empty one.
-/

namespace WordSlot

namespace Calldata

/-- The calldata of a call: the method is looked up by name and its arguments, any value with parts, are checked. -/
def encode (manifest name args : Value) : Except Fault Bytes := do
  let m ← Manifest.lookup manifest name
  let selector ← m.selector
  let arguments ← Arguments.encode (m.inputs.map .type) (← args.parts)
  pure (selector ++ arguments)

/-- The bytes of calldata handed over as any value. -/
def ofValue (data : Value) : Except Fault Bytes :=
  match data.toBytes? with
  | some b => pure b
  | none => throw (.abi .calldataNotBytes)

/-- The method that calldata names and its arguments, for calldata of at most `most` bytes. -/
def decode (most : Nat) (manifest : Value) (data : Bytes) : Except Fault (Method × List Nat) :=
  if most < data.length then throw (.abi (.calldataTooLarge most data.length))
  else if data.length < selectorBytes then throw (.abi (.calldataTooShort data.length))
  else do
    let table ← Manifest.table manifest
    match table.lookup (data.take selectorBytes) with
    | none => throw (.abi (.unknownSelector (data.take selectorBytes)))
    | some m => do
      let (args, rest) ← Arguments.read m.inputs (data.drop selectorBytes)
      if rest.isEmpty then pure (m, args) else throw (.abi (.trailingArguments rest.length))

end Calldata

namespace ReturnData

/-- The return data of a method that gives `value`; a method without outputs gives an empty list whatever the value. -/
def encode (m : Method) (value : Value) : Except Fault Bytes :=
  if m.outputs.isEmpty then pure (Arguments.write []) else Arguments.encode (m.outputs.map .type) [value]

/-- The value that return data of a method holds, if the method gives one. -/
def decode (m : Method) (data : Bytes) : Except Fault (Option Nat) := do
  let (values, rest) ← Arguments.read m.outputs data
  if rest.isEmpty then pure values.head? else throw (.abi .trailingReturn)

/-- The largest number of bytes that can be asked for. -/
def maxAsked : Nat := Nat.pow 2 63 - 34

/-- A number of bytes that no memory has. -/
def beyondMemory : Nat := Nat.pow 2 36

/-- The bytes that a value can be turned into: bytes, numbers below 256, the text of a path, or as many zeros as a number
says, of which one is enough to see that a list is empty. -/
def bytesOf : Value → Except Fault Bytes
  | .bytes b | .buffer b => pure b
  | .text _ => throw (.misuse .wrongKind)
  | .path p =>
    match p.bytes? with
    | some b => pure b
    | none => throw (.misuse .unpairedHalf)
  | v =>
    match v.toInt? with
    | some n =>
      if n < -(Nat.pow 2 63 : Int) then throw (.misuse .tooLarge)
      else if n < 0 then throw (.misuse .wrongValue)
      else if maxAsked < n.toNat then throw (.misuse .tooLarge)
      else if beyondMemory ≤ n.toNat then throw (.misuse .outOfMemory)
      else pure (List.replicate (min n.toNat 16) 0)
    | none => do (← v.parts).mapM Buffer.toByte

/-- The value that return data handed over as any value holds. Data without a size is a misuse, seen last. -/
def decodeAny (m : Method) (data : Value) : Except Fault (Option Nat) := do
  let b ← bytesOf data
  if (Buffer.ofValue data).isOk then decode m b
  else do
    let _ ← Arguments.read m.outputs b
    throw (.misuse .wrongKind)

end ReturnData

end WordSlot
