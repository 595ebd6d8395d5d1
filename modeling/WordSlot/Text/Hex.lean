import WordSlot.Bytes
import WordSlot.Text.Blank

/-!
# Hex text

Bytes are written as two small hex digits each. Reading takes digits of either case and lets ASCII blanks stand before,
between and after the pairs, never inside one.
-/

namespace WordSlot

/-- The value of a hex digit of either case. -/
def hexValue? (c : Char) : Option Nat :=
  let n := c.toNat
  if 0x30 ≤ n && n ≤ 0x39 then some (n - 0x30)
  else if 0x61 ≤ n && n ≤ 0x66 then some (n - 0x61 + 10)
  else if 0x41 ≤ n && n ≤ 0x46 then some (n - 0x41 + 10)
  else none

/-- Hex digits of a byte string, two to a byte. -/
def hexDigits (b : Bytes) : List Char :=
  b.flatMap fun x => [Nat.digitChar (x.toNat / 16), Nat.digitChar (x.toNat % 16)]

/-- Hex text of a byte string. -/
def hex (b : Bytes) : String := String.ofList (hexDigits b)

/-- Hex text of a byte string after the mark that says so. -/
def hexMarked (b : Bytes) : String := "0x" ++ hex b

/-- The bytes that hex text spells; `none` for an unpaired digit, a blank inside a pair or any other character. -/
def readHex : List Char → Option Bytes
  | [] => some []
  | c :: rest =>
    if isAsciiBlank c then readHex rest
    else match rest with
      | [] => none
      | d :: rest =>
        match hexValue? c, hexValue? d with
        | some high, some low => (readHex rest).map (UInt8.ofNat (high * 16 + low) :: ·)
        | _, _ => none

/-- A number in hex digits with the fewest digits, after the mark and any sign. -/
def hexNumber (n : Int) : String := (if n < 0 then "-0x" else "0x") ++ String.ofList (Nat.toDigits 16 n.natAbs)

end WordSlot
