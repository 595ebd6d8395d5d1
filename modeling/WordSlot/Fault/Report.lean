import WordSlot.Value

/-!
# Reports

The faults that the store reports belong to five families and have a code, a message and a context.
-/

namespace WordSlot

/-- The families of reported faults. A state-file fault is also a storage fault; domain and call faults are about a value
handed in. -/
inductive Family where
  | store
  | domain
  | abi
  | storage
  | stateFile
deriving DecidableEq

namespace Family

/-- The code of a family's faults when nothing else is said. -/
def code : Family → String
  | .store => "store_error"
  | .domain => "domain_violation"
  | .abi => "abi_error"
  | .storage => "storage_error"
  | .stateFile => "state_file_error"

/-- The name under which a family is shown. -/
def name : Family → String
  | .store => "StoreError"
  | .domain => "DomainViolation"
  | .abi => "AbiError"
  | .storage => "StorageError"
  | .stateFile => "StateFileError"

/-- Faults about a value that was handed in. -/
def aboutValue : Family → Bool
  | .domain | .abi => true
  | _ => false

/-- Faults of the storage behind the slot. -/
def aboutStorage : Family → Bool
  | .storage | .stateFile => true
  | _ => false

end Family

/-- A fault as it is reported. -/
structure Report where
  family : Family
  code : Text
  message : Text
  context : List (Value × Value)

namespace Report

/-- The report as a document. -/
def document (r : Report) : Value :=
  .record [("code", .text r.code), ("message", .text r.message), ("context", .dict r.context)]

/-- The report on one line. -/
def line (r : Report) : String :=
  r.family.name ++ "(code=" ++ quote r.code ++ ", message=" ++ quote r.message ++ ")"

end Report

end WordSlot
