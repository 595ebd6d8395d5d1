import WordSlot.Text.Numeral

/-!
# Unsigned integer types

The only types of the call surface: unsigned integers whose width is a whole number of bytes, at most thirty-two.
-/

namespace WordSlot

/-- The widths an unsigned integer type can have. -/
def validWidth (bits : Int) : Bool := 0 < bits && bits ≤ 256 && bits % 8 == 0

/-- An unsigned integer type by its width in bits. -/
structure UIntType where
  bits : Nat
  valid : validWidth bits = true
deriving DecidableEq

namespace UIntType

/-- The widest type, which a bare `uint` means. -/
def widest : UIntType := ⟨256, by decide⟩

/-- The name of a type. -/
def name (t : UIntType) : String := "uint" ++ decimalNat t.bits

/-- The largest value of a type. -/
def maxValue (t : UIntType) : Nat := Nat.pow 2 t.bits - 1

/-- The type of a given width, if that width is valid. -/
def ofBits? (bits : Int) : Option UIntType :=
  if h : validWidth bits.toNat = true then (if bits.toNat = bits then some ⟨bits.toNat, h⟩ else none) else none

end UIntType

end WordSlot
