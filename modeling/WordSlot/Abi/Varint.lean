import WordSlot.Fault

/-!
# Counts

A count is written in groups of seven bits, least significant first, each but the last with the top bit set. Reading takes the
shortest form only, of at most ten bytes.
-/

namespace WordSlot

namespace Varint

/-- The bytes of a count. -/
def encode (n : Nat) : Bytes :=
  if h : n < 128 then [UInt8.ofNat n] else UInt8.ofNat (n % 128 + 128) :: encode (n / 128)
termination_by n
decreasing_by omega

/-- The most bytes that a count may take when it is read. -/
def maxBytes : Nat := 10

/-- Reads a count that has at most `allowed` more bytes, and gives what follows it; `first` says that no byte has been read. -/
def readGroups : Nat → Bool → Bytes → Except Fault (Nat × Bytes)
  | _, _, [] => throw (.abi .countTruncated)
  | 0, _, _ :: _ => throw (.abi .countTooLong)
  | allowed + 1, first, b :: rest =>
    if b.toNat < 128 then
      if !first && b.toNat == 0 then throw (.abi .countNotMinimal) else pure (b.toNat, rest)
    else if allowed = 0 then throw (.abi .countTooLong)
    else do
      let (n, rest) ← readGroups allowed false rest
      pure (b.toNat - 128 + 128 * n, rest)

/-- Reads a count from the front of a byte string and gives what follows it. -/
def read (b : Bytes) : Except Fault (Nat × Bytes) := readGroups maxBytes true b

end Varint

/-- The bytes of a count given as any value. -/
def encodeCount : Value → Except Fault Bytes
  | .int n => if n < 0 then throw (.misuse .countNegative) else pure (Varint.encode n.toNat)
  | _ => throw (.misuse .countNotInteger)

end WordSlot
