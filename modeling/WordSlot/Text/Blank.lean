import WordSlot.Text

/-!
# White space

Two notions of a blank: the blanks of any script, which are stripped from the ends of a text, and the six ASCII blanks, which
may stand between the byte pairs of hex text and around a numeral.
-/

namespace WordSlot

/-- A blank of any script: tabs and line breaks, the four separators from U+001C on, and the spaces. -/
def isBlank (n : Nat) : Bool :=
  (0x09 ≤ n && n ≤ 0x0d) || (0x1c ≤ n && n ≤ 0x20) || n == 0x85 || n == 0xa0 || n == 0x1680 || (0x2000 ≤ n && n ≤ 0x200a) ||
    n == 0x2028 || n == 0x2029 || n == 0x202f || n == 0x205f || n == 0x3000

/-- One of the six ASCII blanks: space, tab, line feed, vertical tab, form feed, carriage return. -/
def isAsciiBlank (c : Char) : Bool := c == ' ' || (0x09 ≤ c.toNat && c.toNat ≤ 0x0d)

/-- Removes what `p` accepts from both ends. -/
def trimBoth {α : Type} (p : α → Bool) (cs : List α) : List α := ((cs.dropWhile p).reverse.dropWhile p).reverse

/-- Removes what `p` accepts from the end. -/
def trimEnd {α : Type} (p : α → Bool) (cs : List α) : List α := (cs.reverse.dropWhile p).reverse

namespace Text

/-- A text without the blanks at its ends. -/
def strip (t : Text) : Text := ⟨trimBoth isBlank t.codes⟩

/-- A text without the blanks at its end. -/
def stripEnd (t : Text) : Text := ⟨trimEnd isBlank t.codes⟩

/-- A code point with an ASCII capital made small. -/
def lowerCode (code : Nat) : Nat := if 0x41 ≤ code && code ≤ 0x5a then code + 0x20 else code

/-- A text with its ASCII capitals made small; every other character stays. -/
def asciiLower (t : Text) : Text := ⟨t.codes.map lowerCode⟩

end Text

end WordSlot
