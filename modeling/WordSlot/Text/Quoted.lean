import WordSlot.Bytes
import WordSlot.Text
import WordSlot.Text.Printable

/-!
# Quoted text

Text and bytes as messages quote them: in single quotes, or in double quotes if that spares an escape. The backslash, the
quote, line feed, carriage return and tab are escaped by a letter, other characters that are not printable by their number.
Buffers escape a single quote in either case.
-/

namespace WordSlot

/-- `width` hex digits of a number. -/
def hexPadded (width n : Nat) : List Char :=
  let ds := Nat.toDigits 16 n
  List.replicate (width - ds.length) '0' ++ ds

namespace Quoted

/-- The quote to use: the double one iff the text has a single quote and no double one. -/
def mark (codes : List Nat) : Nat := if codes.contains 0x27 && !codes.contains 0x22 then 0x22 else 0x27

/-- A code point by number, in the shortest of the three forms that holds it. -/
def byNumber (code : Nat) : List Char :=
  if code < 0x100 then '\\' :: 'x' :: hexPadded 2 code
  else if code < 0x10000 then '\\' :: 'u' :: hexPadded 4 code
  else '\\' :: 'U' :: hexPadded 8 code

/-- One code point inside quotes; those in `slashed` stand behind a backslash, and `shown` says which others are written as
they are. -/
def escape (shown : Nat → Bool) (slashed : List Nat) (code : Nat) : List Char :=
  if slashed.contains code then ['\\', Char.ofNat code]
  else if code == 0x09 then ['\\', 't']
  else if code == 0x0a then ['\\', 'n']
  else if code == 0x0d then ['\\', 'r']
  else if shown code then [Char.ofNat code]
  else byNumber code

/-- Code points between quotes. The quote, the backslash and the code points in `more` stand behind a backslash. -/
def between (shown : Nat → Bool) (more codes : List Nat) : String :=
  let quote := mark codes
  String.ofList (Char.ofNat quote :: codes.flatMap (escape shown (quote :: 0x5c :: more)) ++ [Char.ofNat quote])

/-- A printable ASCII character. -/
def isPlainByte (code : Nat) : Bool := 0x20 ≤ code && code < 0x7f

end Quoted

/-- Quoted form of a text. -/
def quote (t : Text) : String := Quoted.between isPrintable [] t.codes

/-- Quoted form of a byte string: bytes beyond printable ASCII are written by number. -/
def quoteBytes (b : Bytes) : String := "b" ++ Quoted.between Quoted.isPlainByte [] (b.map UInt8.toNat)

/-- Quoted form of a buffer, in which a single quote is always escaped. -/
def quoteBuffer (b : Bytes) : String :=
  "bytearray(b" ++ Quoted.between Quoted.isPlainByte [0x27] (b.map UInt8.toNat) ++ ")"

end WordSlot
