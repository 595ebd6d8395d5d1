import WordSlot.Fault

/-!
# Numbers from callers

A caller gives a number as a number or as a numeral, decimal or marked hex. Nothing is wrapped: a number that does not fit the
width asked for is refused.
-/

namespace WordSlot

/-- Reads a caller's numeral: blanks at the ends and all underscores are dropped, and a leading `0x` means hex. -/
def readNumber? (t : Text) : Option Int :=
  match t.strip.chars?.map (·.filter (· != '_')) with
  | some ('0' :: 'x' :: rest) => (Numeral.hex? rest).map fun n => (n : Int)
  | some ('0' :: 'X' :: rest) => (Numeral.hex? rest).map fun n => (n : Int)
  | some cs => Numeral.decimal? cs
  | none => none

/-- A number as one of at most `bits` binary digits. -/
def fitUInt (bits n : Int) : Except Fault Nat :=
  if n < 0 then do throw (.domain (.belowZero (← Value.decimalText bits) (← Value.decimalText n)))
  else if bits < bitLength n.toNat then do throw (.domain (.overflow (← Value.decimalText bits) (bitLength n.toNat)))
  else pure n.toNat

/-- A caller's value as a number of at most `bits` binary digits. -/
def coerceUInt (bits : Int) : Value → Except Fault Nat
  | .bool _ => throw (.domain .truthValue)
  | .text s =>
    match readNumber? s with
    | some n => fitUInt bits n
    | none => throw (.domain (.notNumeral (quote s)))
  | .int n => fitUInt bits n
  | v => throw (.domain (.notNumber v.kind))

end WordSlot
