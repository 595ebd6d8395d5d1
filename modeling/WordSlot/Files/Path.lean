import WordSlot.Text.Utf8

/-!
# Paths

A path is an anchor and a list of names. Reading one drops empty and `.` names, so that two spellings of a path that differ
only in those are equal; `..` is kept, because what it means depends on the files.
-/

namespace WordSlot

/-- Where a path starts: at the working directory, at the root, or at the root spelt with exactly two slashes. -/
inductive Anchor where
  | here
  | root
  | doubleRoot
deriving DecidableEq

/-- A path by its anchor and its names. -/
structure Path where
  anchor : Anchor
  names : List Text
deriving DecidableEq

/-- Why the file system cannot be asked for a path: it holds a half of a surrogate pair, or the zero character. -/
inductive PathFlaw where
  | half
  | zero
deriving DecidableEq

namespace Path

/-- The anchor that a number of leading slashes stands for. -/
def anchorOf : Nat → Anchor
  | 0 => .here
  | 2 => .doubleRoot
  | _ => .root

/-- Reads a path. -/
def ofText (t : Text) : Path :=
  ⟨anchorOf (t.codes.takeWhile (· == 0x2f)).length, (t.split '/').filter fun name => !name.isEmpty && name != "."⟩

/-- The text of a path; the working directory is a point. -/
def text (p : Path) : Text :=
  let body := Text.join "/" p.names
  match p.anchor with
  | .here => if p.names.isEmpty then "." else body
  | .root => "/" ++ body
  | .doubleRoot => "//" ++ body

/-- The last name, empty for a bare anchor. -/
def name (p : Path) : Text := p.names.getLast?.getD .empty

/-- The path without its last name. -/
def parent (p : Path) : Path := { p with names := p.names.dropLast }

/-- The path whose names are followed by one more. -/
def child (p : Path) (name : Text) : Path := { p with names := p.names ++ [name] }

/-- A half from U+DC80 to U+DCFF stands for a byte of a name that is no text. -/
def isByteHalf (code : Nat) : Bool := 0xdc80 ≤ code && code ≤ 0xdcff

/-- What is wrong with a path for the file system. -/
def flaw? (p : Path) : Option PathFlaw :=
  if p.text.codes.any fun code => !Text.isScalar code && !isByteHalf code then some .half
  else if p.text.codes.contains 0 then some .zero
  else none

/-- The bytes of one code point of a path; a half that stands for no byte has none. -/
def codeBytes? (code : Nat) : Option Bytes :=
  if isByteHalf code then some [UInt8.ofNat (code - 0xdc00)] else Utf8.encodeText? ⟨[code]⟩

/-- The bytes of a path. -/
def bytes? (p : Path) : Option Bytes := (p.text.codes.mapM codeBytes?).map List.flatten

/-- A path without an anchor whose first name starts with a tilde stands for one in a home directory. `home?` gives the home
of a user, the empty name meaning the current one; `none` if there is none. -/
def expandHome? (home? : Text → Option Text) (p : Path) : Option Path :=
  match p.anchor, p.names with
  | .here, first :: rest =>
    match first.codes with
    | 0x7e :: user =>
      match home? ⟨user⟩ with
      | some home =>
        if home.codes.head? == some 0x7e then none
        else
          let base := ofText home
          some { base with names := base.names ++ rest }
      | none => none
    | _ => some p
  | _, _ => some p

end Path

end WordSlot
