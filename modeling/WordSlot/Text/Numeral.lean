import WordSlot.Text.Blank
import WordSlot.Text.Digit
import WordSlot.Text.Hex

/-!
# Numerals

Reading and writing whole numbers as text. Decimal text has at most 4300 digits in either direction; hex, octal and binary
text has no limit. A numeral may be written in the digits of any script and may have blanks around it.
-/

namespace WordSlot

/-- The most decimal digits that are read or written. -/
def maxDecimalDigits : Nat := 4300

/-- Decimal text of a number of any size. -/
def decimalNat (n : Nat) : String := String.ofList (Nat.toDigits 10 n)

/-- Decimal text of a number of any size, with a sign if it is negative. -/
def decimalInt (n : Int) : String := if n < 0 then "-" ++ decimalNat n.natAbs else decimalNat n.natAbs

/-- Decimal text of a number; `none` if it would take more than 4300 digits. -/
def decimal? (n : Int) : Option String := if n.natAbs < Nat.pow 10 maxDecimalDigits then some (decimalInt n) else none

namespace Numeral

/-- A character as the numeral reader sees it: a digit of any script as the ASCII digit, a blank beyond ASCII as a space, any
other character beyond ASCII as one that no numeral has. -/
def plain (c : Char) : Char :=
  if c.toNat < 127 then c
  else if isBlank c.toNat then ' '
  else match digitValue? c with
    | some d => Nat.digitChar d
    | none => '?'

/-- The value of a digit in the given base. -/
def digit? (base : Nat) (c : Char) : Option Nat :=
  match hexValue? c with
  | some d => if d < base then some d else none
  | none => none

/-- Digits of the given base, of which two neighbours may have one underscore between them; `none` if there is no digit or an
underscore stands elsewhere. -/
def digits? (base : Nat) : List Char → Option (List Nat)
  | [] => none
  | c :: rest =>
    match digit? base c with
    | none => none
    | some d =>
      match rest with
      | [] => some [d]
      | '_' :: rest => (digits? base rest).map (d :: ·)
      | rest => (digits? base rest).map (d :: ·)

/-- The number that digits spell, most significant first. -/
def ofDigits (base : Nat) (ds : List Nat) : Nat := ds.foldl (fun n d => n * base + d) 0

/-- The magnitude of a decimal numeral: at most 4300 digits. -/
def decimalBody? (cs : List Char) : Option Nat :=
  match digits? 10 cs with
  | some ds => if ds.length ≤ maxDecimalDigits then some (ofDigits 10 ds) else none
  | none => none

/-- The magnitude of a numeral in hex, octal or binary after its mark; one underscore may follow the mark. -/
def markedBody? (base : Nat) (cs : List Char) : Option Nat :=
  (digits? base (match cs with | '_' :: rest => rest | cs => cs)).map (ofDigits base)

/-- A magnitude with the sign in front of it. -/
def signed? (body? : List Char → Option Nat) : List Char → Option Int
  | '-' :: rest => (body? rest).map fun n => -(n : Int)
  | '+' :: rest => (body? rest).map fun n => (n : Int)
  | cs => (body? cs).map fun n => (n : Int)

/-- The magnitude of a literal: hex, octal or binary by its mark, else decimal, where only zero may start with a zero. -/
def literalBody? : List Char → Option Nat
  | '0' :: 'x' :: rest => markedBody? 16 rest
  | '0' :: 'X' :: rest => markedBody? 16 rest
  | '0' :: 'o' :: rest => markedBody? 8 rest
  | '0' :: 'O' :: rest => markedBody? 8 rest
  | '0' :: 'b' :: rest => markedBody? 2 rest
  | '0' :: 'B' :: rest => markedBody? 2 rest
  | '0' :: rest =>
    match decimalBody? ('0' :: rest) with
    | some 0 => some 0
    | _ => none
  | cs => decimalBody? cs

/-- The characters of a numeral without the blanks around it. -/
def trimmed (cs : List Char) : List Char := trimBoth isAsciiBlank (cs.map plain)

/-- Reads a decimal numeral with an optional sign. -/
def decimal? (cs : List Char) : Option Int := signed? decimalBody? (trimmed cs)

/-- Reads what follows the mark of a hex numeral. -/
def hex? (cs : List Char) : Option Nat := markedBody? 16 (trimEnd isAsciiBlank (cs.map plain))

/-- Reads a literal with an optional sign. -/
def literal? (cs : List Char) : Option Int := signed? literalBody? (trimmed cs)

end Numeral

end WordSlot
