import WordSlot.Decimal.Fixed
import WordSlot.Fault

/-!
# Percent templates

A message may be a template: each percent mark takes the next argument, or the one under a key, and says how to write it. A
template that does not fit its arguments is a misuse. Code points stand for the marks of the template language, which are all
ASCII. Padding can ask for more characters than fit into memory; how many do is the `room` that is given.
-/

namespace WordSlot

namespace Template

/-- How one argument is written. -/
structure Spec where
  left : Bool
  plus : Bool
  blank : Bool
  alternate : Bool
  zero : Bool
  width : Nat
  precision : Option Nat
  conversion : Nat

/-- What is left of the arguments; `mapping` is what keys are looked up in. -/
structure Supply where
  pending : List Value
  mapping : Option Value

/-- The arguments of a template: a tuple gives its items, any other value itself; some values can be looked up in. -/
def Supply.ofValue : Value → Supply
  | .tuple items => ⟨items, none⟩
  | v =>
    match v with
    | .dict _ | .list _ | .bytes _ | .buffer _ => ⟨[v], some v⟩
    | _ => ⟨[v], none⟩

/-- Takes the next argument. -/
def Supply.next (s : Supply) : Except Fault (Value × Supply) :=
  match s.pending with
  | v :: rest => pure (v, { s with pending := rest })
  | [] => throw (.misuse .wrongKind)

/-- The argument under a key becomes the only one. -/
def Supply.key (s : Supply) (key : Text) : Except Fault Supply :=
  match s.mapping with
  | some (.dict entries) =>
    match Value.field? key entries with
    | some v => pure { s with pending := [v] }
    | none => throw (.misuse .missingKey)
  | _ => throw (.misuse .wrongKind)

/-- Splits a key from what follows its closing bracket; brackets inside a key are balanced. -/
def splitKey : Nat → List Nat → Option (List Nat × List Nat)
  | _, [] => none
  | depth, code :: rest =>
    let go (depth : Nat) := (splitKey depth rest).map fun (key, rest) => (code :: key, rest)
    if code = '('.toNat then go (depth + 1)
    else if code = ')'.toNat then
      match depth with
      | 0 => some ([], rest)
      | depth + 1 => go depth
    else go depth

/-- The flag that a mark sets. -/
def Spec.flag? (spec : Spec) (code : Nat) : Option Spec :=
  if code = '-'.toNat then some { spec with left := true }
  else if code = '+'.toNat then some { spec with plus := true }
  else if code = ' '.toNat then some { spec with blank := true }
  else if code = '#'.toNat then some { spec with alternate := true }
  else if code = '0'.toNat then some { spec with zero := true }
  else none

/-- Reads the flags. -/
def readFlags (spec : Spec) : List Nat → Spec × List Nat
  | [] => (spec, [])
  | code :: rest =>
    match spec.flag? code with
    | some spec => readFlags spec rest
    | none => (spec, code :: rest)

/-- The largest width. -/
def maxWidth : Nat := Nat.pow 2 63 - 1

/-- The largest precision. -/
def maxPrecision : Nat := Nat.pow 2 31 - 1

/-- The largest precision of a whole number. -/
def maxWholePrecision : Nat := maxPrecision - 3

/-- An ASCII digit. -/
def isDigitCode (code : Nat) : Bool := '0'.toNat ≤ code && code ≤ '9'.toNat

/-- A number of at most `most` that is written out or, for a star, taken from the arguments; one from the arguments may reach
as far below zero. -/
def readCount (most : Nat) (codes : List Nat) (s : Supply) : Except Fault (Option Int × List Nat × Supply) :=
  match codes with
  | 0x2a :: rest => do
    let (v, s) ← s.next
    match v.toInt? with
    | some n => if (most : Int) < n || n < -((most : Int) + 1) then throw (.misuse .tooLarge) else pure (some n, rest, s)
    | none => throw (.misuse .wrongKind)
  | codes =>
    let ds := codes.takeWhile isDigitCode
    let n := Numeral.ofDigits 10 (ds.map (· - '0'.toNat))
    if ds.isEmpty then pure (none, codes, s)
    else if most < n then throw (.misuse .wrongValue)
    else pure (some (n : Int), codes.drop ds.length, s)

/-- The code points of characters. -/
def codesOf (cs : List Char) : List Nat := cs.map Char.toNat

/-- A run of one character, if there is room for it. -/
def run (room n : Nat) (c : Char) : Except Fault (List Nat) :=
  if room < n then throw (.misuse .outOfMemory) else pure (List.replicate n c.toNat)

/-- Pads with blanks on the left or on the right. -/
def pad (room : Nat) (spec : Spec) (codes : List Nat) : Except Fault (List Nat) := do
  let gap ← run room (spec.width - codes.length) ' '
  pure (if spec.left then codes ++ gap else gap ++ codes)

/-- A number by its sign, its mark and its digits, padded with zeros behind sign and mark if so asked. -/
def numberText (room : Nat) (spec : Spec) (negative : Bool) (mark body : List Nat) : Except Fault (List Nat) :=
  let sign := codesOf (if negative then ['-'] else if spec.plus then ['+'] else if spec.blank then [' '] else [])
  if spec.zero && !spec.left then do
    let zeros ← run room (spec.width - sign.length - mark.length - body.length) '0'
    pure (sign ++ mark ++ zeros ++ body)
  else pad room spec (sign ++ mark ++ body)

/-- A whole number by its digits in some base, with the mark of that base. -/
def wholeText (room : Nat) (spec : Spec) (mark : List Char) (n : Int) (ds : List Char) : Except Fault (List Nat) := do
  let zeros ← run room (spec.precision.getD 0 - ds.length) '0'
  numberText room spec (n < 0) (codesOf (if spec.alternate then mark else [])) (zeros ++ codesOf ds)

/-- A whole number's precision stays below the largest one by the room that a sign and a mark take. -/
def checkWholePrecision (spec : Spec) : Except Fault Unit :=
  if maxWholePrecision < spec.precision.getD 0 then throw (.misuse .tooLarge) else pure ()

/-- The places of a double with an exponent. One digit stands before the point, so that the largest precision asks for one
digit too many to count; then there are no places. -/
def exponentPlaces (places : Nat) : Nat := if places = maxPrecision then 0 else places

/-- A text with the places given, if there is room for them. -/
def withPlaces (room places : Nat) (text : Nat → List Char) : Except Fault (List Char) :=
  if room < places then throw (.misuse .outOfMemory) else pure (text places)

/-- A double in the form that the conversion letter, here a small one, asks for. -/
def doubleForm (room : Nat) (spec : Spec) (letter : Char) (x : Double) : Except Fault (List Char) :=
  let places := spec.precision.getD 6
  match x.magnitude with
  | .notANumber => pure "nan".toList
  | .infinite _ => pure "inf".toList
  | .finite _ m q =>
    if letter == 'f' then withPlaces room places fun places => Fixed.positionalText spec.alternate places m q
    else if letter == 'e' then withPlaces room (exponentPlaces places) fun places => Fixed.exponentialText spec.alternate places m q
    else if spec.alternate then withPlaces room places fun places => Fixed.generalText true places m q
    else pure (Fixed.generalText false places m q)

/-- The double that a value is. -/
def toDouble : Value → Except Fault Double
  | .real x => pure x
  | v =>
    match v.toInt? with
    | some n =>
      if n == 0 then pure (Double.ofParts false 0)
      else
        let x := Double.ofRatio (n < 0) n.natAbs 1
        if x == Double.infinity (n < 0) then throw (.misuse .tooLarge) else pure x
    | none => throw (.misuse .wrongKind)

/-- The whole number that a value is; the fraction of a double is dropped. -/
def toWhole : Value → Except Fault Int
  | .real x =>
    match x.magnitude, x.truncate? with
    | .notANumber, _ => throw (.misuse .wrongValue)
    | _, some n => pure n
    | _, none => throw (.misuse .tooLarge)
  | v =>
    match v.toInt? with
    | some n => pure n
    | none => throw (.misuse .wrongKind)

/-- The whole number that a value is exactly. -/
def toExact (v : Value) : Except Fault Int :=
  match v.toInt? with
  | some n => pure n
  | none => throw (.misuse .wrongKind)

/-- Text cut to the precision and padded. -/
def cutText (room : Nat) (spec : Spec) (t : Text) : Except Fault (List Nat) :=
  pad room spec (match spec.precision with
    | some n => t.codes.take n
    | none => t.codes)

/-- A text with every character beyond ASCII escaped by its number. -/
def asciiOnly (t : Text) : Text :=
  ⟨t.codes.flatMap fun code => if code < 0x80 then [code] else codesOf (Quoted.byNumber code)⟩

/-- The code point that a value names: a number by itself, or a text of one code point. -/
def toCode : Value → Except Fault Nat
  | .text t =>
    match t.codes with
    | [code] => pure code
    | _ => throw (.misuse .wrongKind)
  | v => do
    let n ← toExact v
    if 0 ≤ n && n < 0x110000 then pure n.toNat else throw (.misuse .tooLarge)

/-- Writes one argument. -/
def convert (room : Nat) (spec : Spec) (v : Value) : Except Fault (List Nat) := do
  let letter := Char.ofNat spec.conversion
  let cased (codes : List Nat) : List Nat := if letter.isUpper then codes.map fun c => (Char.ofNat c).toUpper.toNat else codes
  match letter with
  | 's' => cutText room spec (← v.plainText)
  | 'r' => cutText room spec (← v.quotedText)
  | 'a' => cutText room spec (asciiOnly (← v.quotedText))
  | 'c' => pad room spec [← toCode v]
  | 'd' | 'i' | 'u' => do
    let n ← toWhole v
    checkWholePrecision spec
    let _ ← Value.decimalText n
    wholeText room spec [] n (Nat.toDigits 10 n.natAbs)
  | 'o' => do
    let n ← toExact v
    checkWholePrecision spec
    wholeText room spec ['0', 'o'] n (Nat.toDigits 8 n.natAbs)
  | 'x' | 'X' => do
    let n ← toExact v
    checkWholePrecision spec
    pure (cased (← wholeText room spec ['0', 'x'] n (Nat.toDigits 16 n.natAbs)))
  | 'e' | 'E' | 'f' | 'F' | 'g' | 'G' => do
    let x ← toDouble v
    pure (cased (← numberText room spec x.isNegative [] (codesOf (← doubleForm room spec letter.toLower x))))
  | _ => throw (.misuse .wrongValue)

/-- The width that a number asks for. The number furthest below zero has no opposite to be a width, so that it asks for none. -/
def widthOf (n : Int) : Nat := if maxWidth < n.natAbs then 0 else n.natAbs

/-- A length letter, which has no meaning. -/
def isLengthLetter (code : Nat) : Bool := code == 'h'.toNat || code == 'l'.toNat || code == 'L'.toNat

/-- Reads what follows a percent mark: a key, flags, width, precision, a length letter, the conversion. -/
def readSpec (codes : List Nat) (s : Supply) : Except Fault (Spec × List Nat × Supply) := do
  let (codes, s) ← match codes with
    | 0x28 :: rest =>
      if s.mapping.isNone then throw (.misuse .wrongKind)
      else match splitKey 0 rest with
        | some (key, rest) => do pure (rest, ← s.key ⟨key⟩)
        | none => throw (.misuse .wrongValue)
    | codes => pure (codes, s)
  let (spec, codes) := readFlags ⟨false, false, false, false, false, 0, none, 0⟩ codes
  let (width, codes, s) ← readCount maxWidth codes s
  let width := width.getD 0
  let spec := { spec with width := widthOf width, left := spec.left || width < 0 }
  let (precision, codes, s) ← match codes with
    | 0x2e :: rest => do
      let (n, codes, s) ← readCount maxPrecision rest s
      pure (some (n.getD 0).toNat, codes, s)
    | codes => pure (none, codes, s)
  let codes := match codes with
    | code :: rest => if isLengthLetter code then rest else code :: rest
    | [] => []
  match codes with
  | code :: rest => pure ({ spec with precision, conversion := code }, rest, s)
  | [] => throw (.misuse .wrongValue)

/-- Writes a template from where it stands, where two percent marks stand for one; `fuel` bounds the number of its code
points. -/
def fill (room : Nat) : Nat → List Nat → Supply → Except Fault (List Nat × Supply)
  | 0, _, s => pure ([], s)
  | _ + 1, [], s => pure ([], s)
  | fuel + 1, 0x25 :: 0x25 :: rest, s => do
    let (tail, s) ← fill room fuel rest s
    pure ('%'.toNat :: tail, s)
  | fuel + 1, 0x25 :: rest, s => do
    let (spec, rest, s) ← readSpec rest s
    let (v, s) ← s.next
    let written ← convert room spec v
    let (tail, s) ← fill room fuel rest s
    pure (written ++ tail, s)
  | fuel + 1, code :: rest, s => do
    let (tail, s) ← fill room fuel rest s
    pure (code :: tail, s)

end Template

/-- A template with its arguments filled in; arguments left over are a misuse unless they can be looked up in. -/
def fillTemplate (room : Nat) (template : Text) (args : Value) : Except Fault Text := do
  let (codes, s) ← Template.fill room template.length template.codes (.ofValue args)
  if s.mapping.isNone && !s.pending.isEmpty then throw (.misuse .wrongKind) else pure ⟨codes⟩

end WordSlot
