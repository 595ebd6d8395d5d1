import WordSlot.Abi.TypeName
import WordSlot.Digest
import WordSlot.Text.Utf8

/-!
# Methods

A method has a name, the types it takes and gives, and a word on what it may change. Its signature is the name and the input
types, and its selector the first eight bytes of the signature's digest, by which calldata names it.
-/

namespace WordSlot

/-- The number of bytes of a selector. -/
def selectorBytes : Nat := 8

/-- What stands in front of a signature when it is digested. -/
def selectorDomain : String := "simple-storage:abi:v1|"

/-- The selector of a signature; one with a half of a surrogate pair has no bytes to digest. -/
def selector (signature : Text) : Except Fault Bytes :=
  match Utf8.encodeText? (selectorDomain ++ signature) with
  | some b => pure ((Digest.sha3 b).take selectorBytes)
  | none => throw (.misuse .unpairedHalf)

/-- A method of the call surface. -/
structure Method where
  name : Text
  inputs : List UIntType
  outputs : List UIntType
  mutability : Text
deriving DecidableEq

/-- The signature of a name with input types. -/
def signatureOf (name : Text) (types : List UIntType) : Text :=
  name ++ "(" ++ ",".intercalate (types.map UIntType.name) ++ ")"

/-- The type of a parameter entry: an entry is a dictionary with a type. -/
def parameterType : Value → Except Fault UIntType
  | .dict entries =>
    match Value.field? "type" entries with
    | some type => parseType type
    | none => throw (.misuse .missingKey)
  | _ => throw (.misuse .wrongKind)

/-- The types of the parameters under a key; none if the key is absent. -/
def parameterTypes (key : Text) (entries : List (Value × Value)) : Except Fault (List UIntType) :=
  match Value.field? key entries with
  | some list => do (← list.parts).mapM parameterType
  | none => pure []

namespace Method

/-- The signature of a method. -/
def signature (m : Method) : Text := signatureOf m.name m.inputs

/-- The selector of a method. -/
def selector (m : Method) : Except Fault Bytes := WordSlot.selector m.signature

/-- A method that changes nothing. -/
def isView (m : Method) : Bool := m.mutability == "view" || m.mutability == "pure"

/-- The method that a manifest entry declares. -/
def ofEntry : Value → Except Fault Method
  | .dict entries =>
    match Value.field? "name" entries with
    | none => throw (.abi .namelessFunction)
    | some name => do
      let name ← name.plainText
      let inputs ← parameterTypes "inputs" entries
      let outputs ← parameterTypes "outputs" entries
      let mutability ← match Value.field? "stateMutability" entries with
        | some word => word.plainText
        | none => pure "nonpayable"
      pure ⟨name, inputs, outputs, mutability⟩
  | _ => throw (.misuse .wrongKind)

/-- The document that describes a method. -/
def document (m : Method) : Except Fault (List (Text × Value)) := do
  let selector ← m.selector
  pure [("name", .text m.name), ("signature", .text m.signature), ("selector", .text (hexMarked selector)),
    ("inputs", .list (m.inputs.map fun t => .text t.name)), ("outputs", .list (m.outputs.map fun t => .text t.name)),
    ("stateMutability", .text m.mutability)]

end Method

/-- The signature that a manifest entry declares, read off the entry itself: its types first, then its name. -/
def canonicalSignature : Value → Except Fault Text
  | .dict entries => do
    let types ← parameterTypes "inputs" entries
    match Value.field? "name" entries with
    | some name => pure (signatureOf (← name.plainText) types)
    | none => throw (.misuse .missingKey)
  | _ => throw (.misuse .missingField)

end WordSlot
