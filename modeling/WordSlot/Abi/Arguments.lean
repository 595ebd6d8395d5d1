import WordSlot.Abi.Frame
import WordSlot.Abi.TypeName

/-!
# Argument lists

An argument list travels as its count followed by the frame of each argument. Writing checks each value against its type;
reading knows the types and refuses another count.
-/

namespace WordSlot

namespace Arguments

/-- The bytes of a list of numbers. -/
def write (ns : List Nat) : Bytes := Varint.encode ns.length ++ ns.flatMap Frame.write

/-- Reads one number for each type, left to right. The types are told by `type`, and `frame` reads a number of a width from
where the reading stands. -/
def readItems {τ σ : Type} (type : τ → Except Fault UIntType) (frame : Int → σ → Except Fault (Nat × σ)) :
    List τ → σ → Except Fault (List Nat × σ)
  | [], s => pure ([], s)
  | t :: ts, s => do
    let (n, s) ← frame (← type t).bits s
    let (ns, s) ← readItems type frame ts s
    pure (n :: ns, s)

/-- A count of arguments is the expected one. -/
def checkCount (encoded expected : Nat) : Except Fault Unit :=
  if encoded = expected then pure () else throw (.abi (.countMismatch encoded expected))

/-- Reads the arguments of the given types and gives what follows them. -/
def read (types : List UIntType) (b : Bytes) : Except Fault (List Nat × Bytes) := do
  let (count, rest) ← Varint.read b
  checkCount count types.length
  readItems pure Frame.read types rest

/-- The numbers that values stand for, each checked against its type; a type is read before its value. -/
def coerceAll : List (Value × Value) → Except Fault (List Nat)
  | [] => pure []
  | (type, value) :: rest => do
    let n ← coerceUInt (← parseType type).bits value
    let ns ← coerceAll rest
    pure (n :: ns)

/-- The bytes of values with their types, of which there must be as many. -/
def encode (types values : List Value) : Except Fault Bytes :=
  if types.length ≠ values.length then throw (.abi (.lengthMismatch types.length values.length))
  else (coerceAll (types.zip values)).map write

end Arguments

/-- The bytes of an argument list whose types and values are given as any values with parts. -/
def encodeArguments (types values : Value) : Except Fault Bytes := do
  Arguments.encode (← types.parts) (← values.parts)

/-- The frame of a caller's number of a named type. -/
def encodeValue (type value : Value) : Except Fault Bytes := do
  encodeUInt (← parseType type).bits value

end WordSlot
