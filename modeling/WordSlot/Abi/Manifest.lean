import WordSlot.Abi.Method

/-!
# Manifests

A manifest is a document that declares the methods of a call surface. Methods are told apart by name and, in calldata, by
selector; a manifest in which either is ambiguous is refused.
-/

namespace WordSlot

namespace Manifest

/-- The manifest of the slot: one method to set the word and one to get it. -/
def packaged : Value := .record [
  ("name", .text "ValueStore"),
  ("version", .text "0.1.0"),
  ("manifestVersion", .int 1),
  ("description", .text "One storage slot holding a uint256, with an explicit setter and getter."),
  ("storage", .record [("slots", .list [
    .record [("index", .int 0), ("name", .text "value"), ("type", .text "uint256"), ("default", .int 0)]])]),
  ("abi", .record [("functions", .list [
    .record [
      ("name", .text "set"),
      ("inputs", .list [.record [("name", .text "x"), ("type", .text "uint256")]]),
      ("outputs", .list []),
      ("stateMutability", .text "nonpayable")],
    .record [
      ("name", .text "get"),
      ("inputs", .list []),
      ("outputs", .list [.record [("name", .text ""), ("type", .text "uint256")]]),
      ("stateMutability", .text "view")]])])]

/-- The entries that declare methods. A manifest without a call surface declares none. -/
def entries : Value → Except Fault (List Value)
  | .dict fields =>
    let surface := (Value.field? "abi" fields).getD .none
    if surface.holds then
      match surface with
      | .dict fields =>
        match Value.field? "functions" fields with
        | some list => list.parts
        | none => pure []
      | _ => throw (.misuse .missingField)
    else pure []
  | _ => throw (.misuse .missingField)

/-- Adds the methods of entries, one after another, to those known. -/
def collect (known : List Method) : List Value → Except Fault (List Method)
  | [] => pure known
  | entry :: rest => do
    let m ← Method.ofEntry entry
    if known.any (·.name == m.name) then throw (.abi (.duplicateFunction m.name)) else collect (known ++ [m]) rest

/-- The methods that a manifest declares, in its order. -/
def methods (manifest : Value) : Except Fault (List Method) := do
  collect [] (← entries manifest)

end Manifest

/-- Methods by selector, in manifest order. -/
abbrev DispatchTable := List (Bytes × Method)

namespace DispatchTable

/-- Adds methods, one after another, to a table. -/
def addAll (table : DispatchTable) : List Method → Except Fault DispatchTable
  | [] => pure table
  | m :: rest => do
    let selector ← m.selector
    match table.lookup selector with
    | some other => throw (.abi (.selectorCollision other.signature m.signature))
    | none => addAll (table ++ [(selector, m)]) rest

/-- The table of methods. -/
def ofMethods (ms : List Method) : Except Fault DispatchTable := addAll [] ms

end DispatchTable

namespace Manifest

/-- The dispatch table of a manifest. -/
def table (manifest : Value) : Except Fault DispatchTable := do
  DispatchTable.ofMethods (← methods manifest)

/-- Names in ascending order. -/
def sortedNames (ms : List Method) : List Text := (ms.map (·.name)).mergeSort Text.notAfter

/-- The method of a name among methods. -/
def find? (ms : List Method) : Value → Option Method
  | .text name => ms.find? (·.name == name)
  | _ => none

/-- The method of a name, which may be any value that can be looked up by. -/
def lookup (manifest name : Value) : Except Fault Method := do
  let ms ← methods manifest
  if !name.canIndex then throw (.misuse .wrongKind)
  else match find? ms name with
    | some m => pure m
    | none => do throw (.abi (.unknownFunction (← name.quotedText) (sortedNames ms)))

end Manifest

end WordSlot
