/-!
# Text

Text is a list of code points. Unlike a string it may hold halves of surrogate pairs that stand alone, which an escape in a
document or a number in a template brings in. A text without such halves is a string.
-/

namespace WordSlot

/-- Text by its code points. -/
structure Text where
  codes : List Nat
deriving DecidableEq, Inhabited

namespace Text

/-- The text of a list of characters. -/
def ofChars (cs : List Char) : Text := ⟨cs.map Char.toNat⟩

/-- The text of a string. -/
def ofString (s : String) : Text := ofChars s.toList

instance : Coe String Text := ⟨ofString⟩

instance : Append Text := ⟨fun s t => ⟨s.codes ++ t.codes⟩⟩

/-- The text without code points. -/
def empty : Text := ⟨[]⟩

/-- A text without code points. -/
def isEmpty (t : Text) : Bool := t.codes.isEmpty

/-- The number of code points. -/
def length (t : Text) : Nat := t.codes.length

/-- A code point that is a character. -/
def isScalar (code : Nat) : Bool := code < 0xd800 || (0xdfff < code && code < 0x110000)

/-- The characters of a text; `none` if it holds a half of a surrogate pair. -/
def chars? (t : Text) : Option (List Char) := if t.codes.all isScalar then some (t.codes.map Char.ofNat) else none

/-- The string that a text is. -/
def string? (t : Text) : Option String := t.chars?.map String.ofList

/-- Texts with a separator between them. -/
def join (separator : Text) (ts : List Text) : Text := ⟨separator.codes.intercalate (ts.map codes)⟩

/-- Order of texts by code points: the first is not after the second. -/
def notAfter (s t : Text) : Bool := decide (¬ t.codes < s.codes)

/-- The pieces of a list between separators; there is one more of them than separators. -/
def pieces (separator : Nat) : List Nat → List (List Nat)
  | [] => [[]]
  | c :: cs =>
    if c = separator then [] :: pieces separator cs
    else match pieces separator cs with
      | [] => [[c]]
      | p :: ps => (c :: p) :: ps

/-- The pieces of a text between separators. -/
def split (separator : Char) (t : Text) : List Text := (pieces separator.toNat t.codes).map (⟨·⟩)

end Text

end WordSlot
