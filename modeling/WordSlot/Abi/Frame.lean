import WordSlot.Abi.Coerce
import WordSlot.Abi.Varint

/-!
# Framed numbers

A number travels as the count of its bytes followed by its fewest bytes, most significant first. Reading is strict: a number
has exactly one frame.
-/

namespace WordSlot

namespace Frame

/-- The frame of a number. -/
def write (n : Nat) : Bytes := Varint.encode (Bytes.magnitude n).length ++ Bytes.magnitude n

/-- The number that a frame's bytes spell: no leading zero byte, and at most `bits` binary digits. -/
def ofMagnitude (bits : Int) (b : Bytes) : Except Fault Nat :=
  if 1 < b.length && b.head? == some 0 then throw (.abi .magnitudeNotMinimal)
  else if bits < bitLength b.toNat then do throw (.domain (.overflow (← Value.decimalText bits) (bitLength b.toNat)))
  else pure b.toNat

/-- Reads a framed number of at most `bits` binary digits and gives what follows it. -/
def read (bits : Int) (b : Bytes) : Except Fault (Nat × Bytes) := do
  let (length, rest) ← Varint.read b
  if length = 0 then throw (.abi .magnitudeEmpty)
  else if rest.length < length then throw (.abi (.payloadTruncated length rest.length))
  else do
    let n ← ofMagnitude bits (rest.take length)
    pure (n, rest.drop length)

end Frame

/-- The frame of a caller's number. -/
def encodeUInt (bits : Int) (v : Value) : Except Fault Bytes := (coerceUInt bits v).map Frame.write

end WordSlot
