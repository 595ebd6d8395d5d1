import WordSlot.Value

/-!
# Reading JSON

A reader for JSON documents that also takes `NaN`, `Infinity` and `-Infinity`. A document that is not well formed is refused
with the first place where it cannot go on. A key that comes again takes its last value and keeps its first place. The
nesting of lists and objects is bounded by the caller.
-/

namespace WordSlot

namespace Json

/-- Why a document cannot be read on. -/
inductive Problem where
  | byteOrderMark
  | value
  | propertyName
  | colon
  | comma
  | extraData
  | unterminated
  | controlCharacter
  | escape
  | unicodeEscape
  /-- A whole number with more digits than are read; it has this many. -/
  | tooManyDigits (digits : Nat)
  /-- A list or an object inside more of them than there may be. -/
  | tooDeep
deriving DecidableEq

/-- The words for a problem. -/
def Problem.words : Problem → String
  | .byteOrderMark => "Unexpected UTF-8 BOM (decode using utf-8-sig)"
  | .value => "Expecting value"
  | .propertyName => "Expecting property name enclosed in double quotes"
  | .colon => "Expecting ':' delimiter"
  | .comma => "Expecting ',' delimiter"
  | .extraData => "Extra data"
  | .unterminated => "Unterminated string starting at"
  | .controlCharacter => "Invalid control character at"
  | .escape => "Invalid \\escape"
  | .unicodeEscape => "Invalid \\uXXXX escape"
  | .tooManyDigits digits =>
    "Exceeds the limit (4300 digits) for integer string conversion: value has " ++ decimalNat digits ++
      " digits; use sys.set_int_max_str_digits() to increase the limit"
  | .tooDeep => "Nested too deeply"

/-- A problem with `remaining` characters of the document still ahead. -/
structure Flaw where
  problem : Problem
  remaining : Nat
deriving DecidableEq

/-- The number of characters behind the last line break. -/
def column (before : List Char) : Nat := (before.reverse.takeWhile (· != '\n')).length + 1

/-- A flaw of a document in words, with its line, column and place. A number with too many digits has no place. -/
def Flaw.text (document : List Char) (f : Flaw) : String :=
  match f.problem with
  | .tooManyDigits _ => f.problem.words
  | _ =>
    let place := document.length - f.remaining
    let before := document.take place
    f.problem.words ++ ": line " ++ decimalNat (before.count '\n' + 1) ++ " column " ++ decimalNat (column before) ++
      " (char " ++ decimalNat place ++ ")"

/-- White space between tokens. -/
def isSpace (c : Char) : Bool := c == ' ' || c == '\t' || c == '\n' || c == '\r'

/-- Drops the white space in front. -/
def skip (cs : List Char) : List Char := cs.dropWhile isSpace

/-- The number that four hex digits spell. -/
def hexFour? (a b c d : Char) : Option Nat :=
  match hexValue? a, hexValue? b, hexValue? c, hexValue? d with
  | some a, some b, some c, some d => some (((a * 16 + b) * 16 + c) * 16 + d)
  | _, _, _, _ => none

/-- The code point that an escape letter stands for. -/
def escapeCode? : Char → Option Nat
  | '"' => some 0x22
  | '\\' => some 0x5c
  | '/' => some 0x2f
  | 'b' => some 0x08
  | 'f' => some 0x0c
  | 'n' => some 0x0a
  | 'r' => some 0x0d
  | 't' => some 0x09
  | _ => none

/-- The first half of a surrogate pair. -/
def isHighHalf (code : Nat) : Bool := 0xd800 ≤ code && code < 0xdc00

/-- The second half of a surrogate pair. -/
def isLowHalf (code : Nat) : Bool := 0xdc00 ≤ code && code < 0xe000

/-- The code point of a surrogate pair. -/
def joinHalves (high low : Nat) : Nat := 0x10000 + (high - 0xd800) * 0x400 + (low - 0xdc00)

/-- Reads one code point of a string, or its closing quote, which is `none`; `start` characters were ahead at the opening one.
A surrogate pair is joined if more than its second escape is ahead; a half on its own stays. -/
def readUnit (start : Nat) : List Char → Except Flaw (Option Nat × List Char)
  | [] => .error ⟨.unterminated, start⟩
  | '"' :: rest => .ok (none, rest)
  | '\\' :: [] => .error ⟨.unterminated, start⟩
  | '\\' :: 'u' :: a :: b :: c :: d :: e :: rest =>
    match hexFour? a b c d with
    | none => .error ⟨.unicodeEscape, rest.length + 6⟩
    | some high =>
      match isHighHalf high, e, rest with
      | true, '\\', 'u' :: f :: g :: h :: i :: j :: rest' =>
        match hexFour? f g h i with
        | none => .error ⟨.unicodeEscape, rest'.length + 6⟩
        | some low => if isLowHalf low then .ok (some (joinHalves high low), j :: rest') else .ok (some high, e :: rest)
      | _, _, _ => .ok (some high, e :: rest)
  | '\\' :: 'u' :: rest => .error ⟨.unicodeEscape, rest.length + 1⟩
  | '\\' :: c :: rest =>
    match escapeCode? c with
    | some code => .ok (some code, rest)
    | none => .error ⟨.escape, rest.length + 2⟩
  | c :: rest => if c.toNat ≤ 0x1f then .error ⟨.controlCharacter, rest.length + 1⟩ else .ok (some c.toNat, rest)

/-- Reads the code points of a string up to its closing quote; `fuel` bounds their number. -/
def readUnits (start : Nat) : Nat → List Char → Except Flaw (List Nat × List Char)
  | 0, _ => .error ⟨.unterminated, start⟩
  | fuel + 1, cs =>
    match readUnit start cs with
    | .error f => .error f
    | .ok (none, rest) => .ok ([], rest)
    | .ok (some code, rest) => (readUnits start fuel rest).map fun (codes, rest) => (code :: codes, rest)

/-- Reads the code points of a string behind its opening quote. -/
def readChars (cs : List Char) : Except Flaw (List Nat × List Char) := readUnits (cs.length + 1) cs.length cs

/-- An unsigned number at the front: its whole digits, its fraction, its exponent, and what follows. -/
structure NumberParts where
  whole : List Char
  fraction : List Char
  exponent : Option (Bool × List Char)
  rest : List Char

/-- The point and the digits of a fraction, if there are any. -/
def splitFraction : List Char → List Char × List Char
  | '.' :: c :: rest => if c.isDigit then Double.spanDigits (c :: rest) else ([], '.' :: c :: rest)
  | cs => ([], cs)

/-- An exponent, if the mark is followed by a digit; the flag says that it is negative. -/
def splitExponent (cs : List Char) : Option (Bool × List Char) × List Char :=
  let digits (negative : Bool) (ds : List Char) : Option (Bool × List Char) × List Char :=
    let (exponent, rest) := Double.spanDigits ds
    if exponent.isEmpty then (none, cs) else (some (negative, exponent), rest)
  match cs with
  | e :: ds =>
    if e == 'e' || e == 'E' then
      match ds with
      | '-' :: ds => digits true ds
      | '+' :: ds => digits false ds
      | ds => digits false ds
    else (none, cs)
  | [] => (none, cs)

/-- The parts of an unsigned number: one zero, or digits that do not start with zero, then fraction and exponent. -/
def splitNumber? (cs : List Char) : Option NumberParts :=
  let (whole, rest) := match cs with
    | '0' :: rest => (['0'], rest)
    | cs => Double.spanDigits cs
  if whole.isEmpty then none
  else
    let (fraction, rest) := splitFraction rest
    let (exponent, rest) := splitExponent rest
    some ⟨whole, fraction, exponent, rest⟩

/-- The value of a number by its parts. -/
def numberValue (negative : Bool) (p : NumberParts) : Except Problem Value :=
  if p.fraction.isEmpty && p.exponent.isNone then
    if maxDecimalDigits < p.whole.length then .error (.tooManyDigits p.whole.length)
    else
      let n : Int := Double.digitsValue p.whole
      .ok (.int (if negative then -n else n))
  else
    let exponent : Int := match p.exponent with
      | some (true, ds) => -(Double.digitsValue ds : Int)
      | some (false, ds) => Double.digitsValue ds
      | none => 0
    .ok (.real (Double.ofDecimal negative (Double.digitsValue (p.whole ++ p.fraction)) (exponent - p.fraction.length)))

/-- What follows a word, if it stands at the front. -/
def afterWord? (word : String) (cs : List Char) : Option (List Char) :=
  if word.toList.isPrefixOf cs then some (cs.drop word.length) else none

/-- The words that are values. -/
def words : List (String × Value) :=
  [("null", .none), ("true", .bool true), ("false", .bool false), ("NaN", .real Double.notANumber),
   ("Infinity", .real (Double.infinity false)), ("-Infinity", .real (Double.infinity true))]

/-- Reads a word or a number. -/
def readScalar (cs : List Char) : Except Flaw (Value × List Char) :=
  match words.findSome? fun (word, v) => (afterWord? word cs).map fun rest => (v, rest) with
  | some result => .ok result
  | none =>
    let (negative, body) := match cs with
      | '-' :: rest => (true, rest)
      | cs => (false, cs)
    match splitNumber? body with
    | none => .error ⟨.value, cs.length⟩
    | some p =>
      match numberValue negative p with
      | .ok v => .ok (v, p.rest)
      | .error problem => .error ⟨problem, cs.length⟩

mutual

/-- Reads a value with at most `room` levels of lists and objects; `fuel` bounds the nesting of calls. -/
def readValue : Nat → Nat → List Char → Except Flaw (Value × List Char)
  | 0, _, cs => .error ⟨.value, cs.length⟩
  | fuel + 1, room, cs =>
    match cs with
    | '"' :: rest => (readChars rest).map fun (codes, rest) => (.text ⟨codes⟩, rest)
    | '[' :: rest =>
      match room, skip rest with
      | 0, _ => .error ⟨.tooDeep, rest.length + 1⟩
      | _ + 1, ']' :: rest => .ok (.list [], rest)
      | room + 1, rest => (readItems fuel room rest).map fun (items, rest) => (.list items, rest)
    | '\x7b' :: rest =>
      match room, skip rest with
      | 0, _ => .error ⟨.tooDeep, rest.length + 1⟩
      | _ + 1, '\x7d' :: rest => .ok (.dict [], rest)
      | room + 1, rest => (readMembers fuel room rest).map fun (entries, rest) => (.dict (Value.ofEntries entries), rest)
    | cs => readScalar cs

/-- Reads the items of a list up to its closing bracket. -/
def readItems : Nat → Nat → List Char → Except Flaw (List Value × List Char)
  | 0, _, cs => .error ⟨.value, cs.length⟩
  | fuel + 1, room, cs =>
    match readValue fuel room cs with
    | .error f => .error f
    | .ok (v, rest) =>
      match skip rest with
      | ']' :: rest => .ok ([v], rest)
      | ',' :: rest => (readItems fuel room (skip rest)).map fun (vs, rest) => (v :: vs, rest)
      | rest => .error ⟨.comma, rest.length⟩

/-- Reads the members of an object up to its closing brace. -/
def readMembers : Nat → Nat → List Char → Except Flaw (List (Value × Value) × List Char)
  | 0, _, cs => .error ⟨.value, cs.length⟩
  | fuel + 1, room, cs =>
    match cs with
    | '"' :: rest =>
      match readChars rest with
      | .error f => .error f
      | .ok (codes, rest) =>
        match skip rest with
        | ':' :: rest =>
          match readValue fuel room (skip rest) with
          | .error f => .error f
          | .ok (v, rest) =>
            match skip rest with
            | '\x7d' :: rest => .ok ([(.text ⟨codes⟩, v)], rest)
            | ',' :: rest =>
              (readMembers fuel room (skip rest)).map fun (entries, rest) => ((.text ⟨codes⟩, v) :: entries, rest)
            | rest => .error ⟨.comma, rest.length⟩
        | rest => .error ⟨.colon, rest.length⟩
    | cs => .error ⟨.propertyName, cs.length⟩

end

/-- Reads a whole document: one value with white space around it and at most `room` levels of lists and objects. -/
def read (room : Nat) (document : List Char) : Except Flaw Value :=
  if document.head? == some '\ufeff' then .error ⟨.byteOrderMark, document.length⟩
  else
    match readValue (2 * document.length + 2) room (skip document) with
    | .error f => .error f
    | .ok (v, rest) =>
      match skip rest with
      | [] => .ok v
      | rest => .error ⟨.extraData, rest.length⟩

end Json

end WordSlot
