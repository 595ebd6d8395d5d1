/-!
# Bytes

Byte strings and the numbers they spell: a number as a fixed count of bytes, as its fewest bytes, and back.
-/

namespace WordSlot

/-- A string of bytes. -/
abbrev Bytes := List UInt8

/-- The number of binary digits of a number; none for zero. -/
def bitLength (n : Nat) : Nat := if n = 0 then 0 else n.log2 + 1

namespace Bytes

/-- The `width` low bytes of a number, least significant first. -/
def lowFirst : Nat → Nat → Bytes
  | 0, _ => []
  | width + 1, n => UInt8.ofNat (n % 256) :: lowFirst width (n / 256)

/-- A number as `width` bytes, most significant first. -/
def ofNat (width n : Nat) : Bytes := (lowFirst width n).reverse

/-- The number a byte string spells, most significant byte first; the empty one spells zero. -/
def toNat (b : Bytes) : Nat := b.foldl (fun n x => n * 256 + x.toNat) 0

/-- The fewest bytes that spell a number, most significant first; zero takes one byte. -/
def magnitude (n : Nat) : Bytes := if n = 0 then [0] else ofNat ((bitLength n + 7) / 8) n

end Bytes

end WordSlot
