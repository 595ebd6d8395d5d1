import WordSlot.Fault
import WordSlot.Word

/-!
# Keys and values of a backend

A key is a byte string that is not empty and not longer than the configuration allows; a value is at most one word long.
-/

namespace WordSlot

/-- The bytes of a key, checked as far as no configuration is needed. -/
def keyBytes (key : Value) : Except Fault Bytes :=
  match key.toBytes? with
  | none => throw (.storage .keyNotBytes)
  | some b => if b.isEmpty then throw (.storage .keyEmpty) else pure b

/-- A key is at most `most` bytes long. -/
def checkKeyLength (most : Nat) (key : Bytes) : Except Fault Bytes :=
  if most < key.length then throw (.storage (.keyTooLong most key.length)) else pure key

/-- The bytes of a value. -/
def checkValue (value : Value) : Except Fault Bytes :=
  match value.toBytes? with
  | none => throw (.storage .valueNotBytes)
  | some b => if wordBytes < b.length then throw (.storage (.valueTooLarge b.length)) else pure b

end WordSlot
