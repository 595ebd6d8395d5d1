import WordSlot.Fault.Abi
import WordSlot.Fault.Domain
import WordSlot.Fault.Files
import WordSlot.Fault.Storage

/-!
# Faults

Everything that can go wrong, by cause: faults that the store reports, an operation applied to something it is not made for,
and refusals of the file system. Only the first have a report.
-/

namespace WordSlot

/-- A fault that the store reports. -/
inductive StoreFault where
  | domain (f : DomainFault)
  | abi (f : AbiFault)
  | storage (f : StorageFault)
  | stateFile (f : StateFileFault)

namespace StoreFault

/-- The family of a reported fault. -/
def family : StoreFault → Family
  | .domain _ => .domain
  | .abi _ => .abi
  | .storage _ => .storage
  | .stateFile _ => .stateFile

/-- What a reported fault says. -/
def message : StoreFault → Text
  | .domain f => f.message
  | .abi f => f.message
  | .storage f => f.message
  | .stateFile f => f.message

/-- What a reported fault tells besides. -/
def context : StoreFault → List (Text × Value)
  | .domain f => f.context
  | .abi f => f.context
  | .storage f => f.context
  | .stateFile f => f.context

/-- The report of a fault. -/
def report (f : StoreFault) : Report :=
  ⟨f.family, f.family.code, f.message, f.context.map fun e => (.text e.1, e.2)⟩

end StoreFault

/-- An operation applied to something it is not made for. -/
inductive Misuse where
  | wrongKind
  | wrongValue
  | tooManyDigits
  | missingKey
  | missingField
  | outOfBounds
  | tooLarge
  | unknownHome
  | badEncoding
  | unpairedHalf
  | outOfMemory
  | tooDeep
  | countNotInteger
  | countNegative
  | storeAndBackend
deriving DecidableEq

/-- Anything that can go wrong. -/
inductive Fault where
  | store (f : StoreFault)
  | misuse (m : Misuse)
  | file (f : FileFault)

/-- A path that the file system cannot be asked for is a misuse. -/
def Fault.ofPathFlaw : PathFlaw → Fault
  | .half => .misuse .unpairedHalf
  | .zero => .misuse .wrongValue

/-- A domain fault on its way out. -/
def Fault.domain (f : DomainFault) : Fault := .store (.domain f)

/-- A call fault on its way out. -/
def Fault.abi (f : AbiFault) : Fault := .store (.abi f)

/-- A storage fault on its way out. -/
def Fault.storage (f : StorageFault) : Fault := .store (.storage f)

namespace Value

/-- Decimal text of a number, where more than 4300 digits are a misuse. -/
def decimalText (n : Int) : Except Fault String :=
  match decimal? n with
  | some s => .ok s
  | Option.none => .error (.misuse .tooManyDigits)

/-- Plain text of a value, where a number with more than 4300 digits is a misuse. -/
def plainText (v : Value) : Except Fault Text :=
  match v.plain? with
  | some s => .ok s
  | Option.none => .error (.misuse .tooManyDigits)

/-- Quoted text of a value, where a number with more than 4300 digits is a misuse. -/
def quotedText (v : Value) : Except Fault String :=
  match v.quoted? with
  | some s => .ok s
  | Option.none => .error (.misuse .tooManyDigits)

/-- What iterating over a value yields; a value without parts is a misuse. -/
def parts (v : Value) : Except Fault (List Value) :=
  match v.parts? with
  | some items => .ok items
  | Option.none => .error (.misuse .wrongKind)

/-- A key and a value from a pair given as any value with two parts. -/
def toEntry (v : Value) : Except Fault (Value × Value) := do
  match ← v.parts with
  | [key, value] => if key.canIndex then pure (key, value) else throw (.misuse .wrongKind)
  | _ => throw (.misuse .wrongValue)

/-- The entries of a dictionary, or of one built from a sequence of pairs. -/
def toEntries : Value → Except Fault (List (Value × Value))
  | .dict entries => .ok entries
  | v => do
    let pairs ← (← v.parts).mapM toEntry
    pure (ofEntries pairs)

end Value

/-- A report made from loose parts: an empty code means the family's own, an empty context none. -/
def Report.make (family : Family) (message code context : Value) : Except Fault Report := do
  let code ← if code.holds then code.plainText else pure family.code
  let message ← message.plainText
  let context ← if context.holds then context.toEntries else pure []
  pure ⟨family, code, message, context⟩

end WordSlot
