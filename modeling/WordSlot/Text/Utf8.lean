import WordSlot.Text.Numeral

/-!
# UTF-8

Text as bytes and bytes as text. Bytes that spell no text are refused with the place and the reason: a byte that starts no
character, a byte that does not continue the one before it, or an end inside a character.
-/

namespace WordSlot

namespace Utf8

/-- The bytes of characters. -/
def encode (cs : List Char) : Bytes := cs.flatMap String.utf8EncodeChar

/-- The bytes of a text; a half of a surrogate pair has none. -/
def encodeText? (t : Text) : Option Bytes := t.chars?.map encode

/-- Why bytes spell no text. -/
inductive Reason where
  | start
  | continuation
  | ended
deriving DecidableEq

/-- Bytes from position `first` on, `length` of them, spell no text; `lead` is the first of them. -/
structure Flaw where
  lead : UInt8
  first : Nat
  length : Nat
  reason : Reason
deriving DecidableEq

/-- The words for a reason. -/
def Reason.words : Reason → String
  | .start => "invalid start byte"
  | .continuation => "invalid continuation byte"
  | .ended => "unexpected end of data"

/-- A flaw in words. -/
def Flaw.text (f : Flaw) : String :=
  let place :=
    if f.length ≤ 1 then
      "byte 0x" ++ hex [f.lead] ++ " in position " ++ decimalNat f.first
    else "bytes in position " ++ decimalNat f.first ++ "-" ++ decimalNat (f.first + f.length - 1)
  "'utf-8' codec can't decode " ++ place ++ ": " ++ f.reason.words

/-- What a first byte asks for: the number of bytes to follow and the range of the one right behind it. -/
structure Lead where
  payload : Nat
  more : Nat
  low : Nat
  high : Nat

/-- The plan of a first byte; `none` if it starts no character. -/
def lead? (b : Nat) : Option Lead :=
  if b < 0x80 then some ⟨b, 0, 0, 0⟩
  else if b < 0xc2 then none
  else if b < 0xe0 then some ⟨b - 0xc0, 1, 0x80, 0xbf⟩
  else if b < 0xf0 then
    some ⟨b - 0xe0, 2, if b = 0xe0 then 0xa0 else 0x80, if b = 0xed then 0x9f else 0xbf⟩
  else if b < 0xf5 then
    some ⟨b - 0xf0, 3, if b = 0xf0 then 0x90 else 0x80, if b = 0xf4 then 0x8f else 0xbf⟩
  else none

/-- Follows a first byte: `more` bytes are due, the next in the given range; gives the code point, or how many bytes were good
and whether the text ended there. -/
def follow : Nat → Nat → Nat → Nat → Bytes → Nat → Except (Nat × Reason) (Nat × Bytes)
  | 0, _, _, code, rest, _ => .ok (code, rest)
  | _ + 1, _, _, _, [], good => .error (good, .ended)
  | more + 1, low, high, code, b :: rest, good =>
    if low ≤ b.toNat && b.toNat ≤ high then follow more 0x80 0xbf (code * 64 + (b.toNat - 0x80)) rest (good + 1)
    else .error (good, .continuation)

/-- Reads text from bytes that start at a position; `fuel` bounds the number of characters. -/
def decodeFrom : Nat → Nat → Bytes → Except Flaw (List Char)
  | 0, _, _ => .ok []
  | _ + 1, _, [] => .ok []
  | fuel + 1, position, b :: rest =>
    match lead? b.toNat with
    | none => .error ⟨b, position, 1, .start⟩
    | some plan =>
      match follow plan.more plan.low plan.high plan.payload rest 1 with
      | .error (good, reason) => .error ⟨b, position, good, reason⟩
      | .ok (code, rest') =>
        match decodeFrom fuel (position + 1 + plan.more) rest' with
        | .ok cs => .ok (Char.ofNat code :: cs)
        | .error f => .error f

/-- The text that bytes spell. -/
def decode (b : Bytes) : Except Flaw (List Char) := decodeFrom b.length 0 b

end Utf8

end WordSlot
