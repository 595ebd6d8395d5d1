import WordSlot.Fault.Report

/-!
# Storage faults

A backend does not take a key or a value, or its state file cannot be read, understood or written.
-/

namespace WordSlot

/-- A key or a value that a backend does not take. -/
inductive StorageFault where
  | keyNotBytes
  | keyEmpty
  | keyTooLong (most length : Nat)
  | valueNotBytes
  | valueTooLarge (length : Nat)
deriving DecidableEq

namespace StorageFault

/-- What a storage fault says. -/
def message : StorageFault → String
  | .keyNotBytes => "storage key must be bytes"
  | .keyEmpty => "storage key must be non-empty"
  | .keyTooLong most _ => "storage key too long (>" ++ decimalNat most ++ " bytes)"
  | .valueNotBytes => "storage value must be bytes"
  | .valueTooLarge _ => "storage value too large (>32 bytes)"

/-- What a storage fault tells besides. -/
def context : StorageFault → List (Text × Value)
  | .keyTooLong _ length => [("length", .int length)]
  | .valueTooLarge length => [("length", .int length)]
  | _ => []

end StorageFault

/-- The two hex texts of a slot in a state file. -/
inductive SlotPart where
  | key
  | value
deriving DecidableEq

/-- The name of a slot's part. -/
def SlotPart.name : SlotPart → String
  | .key => "key"
  | .value => "value"

/-- Why a state file cannot be used. -/
inductive StateFileCause where
  | unreadable (reason : String)
  | unwritable (reason : String)
  | notObject
  | badVersion (quotedVersion : String) (version : Value)
  | slotsNotObject
  | notMarkedHex (part : SlotPart)
  | badHex (part : SlotPart)
  | keyEmpty
  | valueTooLarge (key : Text) (length : Nat)

/-- A state file that cannot be read, understood or written, by its path. -/
structure StateFileFault where
  path : Text
  cause : StateFileCause

namespace StateFileFault

/-- What a state-file fault says. -/
def message (f : StateFileFault) : String :=
  match f.cause with
  | .unreadable reason => "cannot read state file: " ++ reason
  | .unwritable reason => "cannot write state file: " ++ reason
  | .notObject => "state file must contain a JSON object"
  | .badVersion quotedVersion _ => "unsupported state file version: " ++ quotedVersion
  | .slotsNotObject => "state file 'slots' must be an object"
  | .notMarkedHex part => "state file " ++ part.name ++ " must be a 0x-hex string"
  | .badHex part => "state file " ++ part.name ++ " is not valid hex"
  | .keyEmpty => "state file key must be non-empty"
  | .valueTooLarge _ _ => "state file value too large (>32 bytes)"

/-- What a state-file fault tells besides. -/
def context (f : StateFileFault) : List (Text × Value) :=
  ("path", .text f.path) :: match f.cause with
    | .badVersion _ version => [("version", version)]
    | .valueTooLarge key length => [("key", .text key), ("length", .int length)]
    | _ => []

end StateFileFault

end WordSlot
