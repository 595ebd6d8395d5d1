import WordSlot.Fault

/-!
# Writing JSON

Documents as JSON text in printable ASCII: every other character is escaped by its UTF-16 units. The style decides what stands
between items and after keys, and whether items take lines of their own.
-/

namespace WordSlot

namespace Json

/-- How a document is laid out; `indent` is the number of blanks per level, for a layout with lines. -/
structure Style where
  comma : List Char
  colon : List Char
  indent : Option Nat

/-- One line, with a blank after every comma and colon. -/
def Style.line : Style := ⟨[',', ' '], [':', ' '], none⟩

/-- One line without blanks. -/
def Style.compact : Style := ⟨[','], [':'], none⟩

/-- A line for every item, two blanks per level. -/
def Style.lines : Style := ⟨[','], [':', ' '], some 2⟩

/-- One UTF-16 unit as an escape. -/
def unitEscape (unit : Nat) : List Char :=
  ['\\', 'u', Nat.digitChar (unit / 4096 % 16), Nat.digitChar (unit / 256 % 16), Nat.digitChar (unit / 16 % 16),
   Nat.digitChar (unit % 16)]

/-- One code point inside a string. -/
def escapeChar (code : Nat) : List Char :=
  if code == 0x22 then ['\\', '"']
  else if code == 0x5c then ['\\', '\\']
  else if code == 0x0a then ['\\', 'n']
  else if code == 0x0d then ['\\', 'r']
  else if code == 0x09 then ['\\', 't']
  else if code == 0x0c then ['\\', 'f']
  else if code == 0x08 then ['\\', 'b']
  else if 0x20 ≤ code && code ≤ 0x7e then [Char.ofNat code]
  else if code < 0x10000 then unitEscape code
  else unitEscape (0xd800 + (code - 0x10000) / 0x400) ++ unitEscape (0xdc00 + (code - 0x10000) % 0x400)

/-- A string of code points. -/
def writeCodes (codes : List Nat) : List Char := '"' :: codes.flatMap escapeChar ++ ['"']

/-- A double; infinities and what is not a number have names. -/
def doubleText (x : Double) : String := x.textWith "Infinity" "NaN"

/-- The text of a key: numbers, truth values and nothing are written as their text; other kinds cannot be keys. -/
def keyCodes : Value → Except Fault (List Nat)
  | .text t => pure t.codes
  | .bool b => pure (Text.ofString (if b then "true" else "false")).codes
  | .none => pure (Text.ofString "null").codes
  | .int n => do pure (Text.ofString (← Value.decimalText n)).codes
  | .real x => pure (Text.ofString (doubleText x)).codes
  | _ => throw (.misuse .wrongKind)

/-- A line break with the indentation of a level, for a layout with lines. -/
def Style.break (style : Style) (level : Nat) : List Char :=
  match style.indent with
  | some n => '\n' :: List.replicate (n * level) ' '
  | none => []

/-- Written items between brackets. -/
def Style.group (style : Style) (level : Nat) (opening closing : Char) (items : List (List Char)) : List Char :=
  if items.isEmpty then [opening, closing]
  else
    opening :: style.break (level + 1) ++ (style.comma ++ style.break (level + 1)).intercalate items ++
      style.break level ++ [closing]

mutual

/-- Writes a value; `other` gives the text of a value that JSON has no form for, or refuses it. -/
def writeAt (style : Style) (other : Value → Except Fault Text) (level : Nat) : Value → Except Fault (List Char)
  | .none => pure "null".toList
  | .bool b => pure (if b then "true" else "false").toList
  | .int n => do pure (← Value.decimalText n).toList
  | .real x => pure (doubleText x).toList
  | .text t => pure (writeCodes t.codes)
  | .list items => do pure (style.group level '[' ']' (← writeItems style other (level + 1) items))
  | .tuple items => do pure (style.group level '[' ']' (← writeItems style other (level + 1) items))
  | .dict entries => do pure (style.group level '\x7b' '\x7d' (← writeEntries style other (level + 1) entries))
  | v => do pure (writeCodes (← other v).codes)

/-- Writes the items of a list. -/
def writeItems (style : Style) (other : Value → Except Fault Text) (level : Nat) :
    List Value → Except Fault (List (List Char))
  | [] => pure []
  | v :: vs => do
    let item ← writeAt style other level v
    let items ← writeItems style other level vs
    pure (item :: items)

/-- Writes the entries of a dictionary. -/
def writeEntries (style : Style) (other : Value → Except Fault Text) (level : Nat) :
    List (Value × Value) → Except Fault (List (List Char))
  | [] => pure []
  | (k, v) :: rest => do
    let key ← keyCodes k
    let value ← writeAt style other level v
    let items ← writeEntries style other level rest
    pure ((writeCodes key ++ style.colon ++ value) :: items)

end

/-- Values without a JSON form are refused. -/
def refuseOther (_ : Value) : Except Fault Text := throw (.misuse .wrongKind)

/-- The JSON text of a document. -/
def write (style : Style) (v : Value) : Except Fault String := do
  pure (String.ofList (← writeAt style refuseOther 0 v))

/-- The JSON text of a document in which values without a JSON form are shown by their plain text. -/
def writeLoosely (style : Style) (v : Value) : Except Fault String := do
  pure (String.ofList (← writeAt style Value.plainText 0 v))

end Json

namespace Value

/-- Text keys in ascending order; other keys keep their place behind them. -/
def keyBefore (a b : Value × Value) : Bool :=
  match a.1, b.1 with
  | .text s, .text t => s.notAfter t
  | _, _ => true

mutual

/-- A document with the entries of every dictionary in ascending order of their text keys. -/
def sortKeys : Value → Value
  | .list items => .list (sortKeysItems items)
  | .tuple items => .tuple (sortKeysItems items)
  | .dict entries => .dict ((sortKeysEntries entries).mergeSort keyBefore)
  | v => v

/-- Sorts the keys inside items. -/
def sortKeysItems : List Value → List Value
  | [] => []
  | v :: vs => sortKeys v :: sortKeysItems vs

/-- Sorts the keys inside the values of entries. -/
def sortKeysEntries : List (Value × Value) → List (Value × Value)
  | [] => []
  | (k, v) :: rest => (k, sortKeys v) :: sortKeysEntries rest

end

end Value

end WordSlot
