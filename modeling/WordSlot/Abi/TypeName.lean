import WordSlot.Fault

/-!
# Type names

A type is spelt `uint` and its width, in any case, with blanks around it and digits of any script; a bare `uint` is the widest.
-/

namespace WordSlot

/-- The digits of a list of characters, if all of them are digits. -/
def widthDigits? (cs : List Char) : Option (List Nat) := cs.mapM digitValue?

/-- The width that a type's spelling asks for: at most three digits after the word. -/
def spelledWidth? (spec : Text) : Option Nat :=
  match spec.strip.asciiLower.chars? with
  | some ('u' :: 'i' :: 'n' :: 't' :: rest) =>
    if rest.isEmpty then some 256
    else if 3 < rest.length then none
    else (widthDigits? rest).map (Numeral.ofDigits 10)
  | _ => none

/-- The type of a width given as a number. -/
def typeOfBits (bits : Int) : Except Fault UIntType :=
  match UIntType.ofBits? bits with
  | some t => pure t
  | none => do throw (.abi (.invalidWidth (← Value.decimalText bits)))

/-- The type that a value names; a type names itself. -/
def parseType : Value → Except Fault UIntType
  | .type t => pure t
  | .text spec =>
    match spelledWidth? spec with
    | some bits => typeOfBits bits
    | none => throw (.abi (.unsupportedType (quote spec)))
  | v => throw (.abi (.specNotText v.kind))

/-- A type as it is built from a width of any kind: a double that is a valid width is taken as it is. -/
inductive LooseType where
  | whole (t : UIntType)
  | double (width : Double)

namespace LooseType

/-- The width of a type as it was given. -/
def width : LooseType → Value
  | .whole t => .int t.bits
  | .double width => .real width

/-- The name of a type, with the width as it was given. -/
def name : LooseType → String
  | .whole t => t.name
  | .double width => "uint" ++ width.text

/-- The largest value of a type; a double is no number of bits to compute it with. -/
def maxValue : LooseType → Except Fault Nat
  | .whole t => pure t.maxValue
  | .double _ => throw (.misuse .wrongKind)

end LooseType

/-- The type of a width given as any value: truth values and doubles are compared as numbers and shown as they are. -/
def typeOfWidth : Value → Except Fault LooseType
  | .int bits => do pure (.whole (← typeOfBits bits))
  | .bool b => throw (.abi (.invalidWidth (if b then "True" else "False")))
  | .real x =>
    match x.toInt? with
    | some n => if validWidth n then pure (.double x) else throw (.abi (.invalidWidth x.text))
    | none => throw (.abi (.invalidWidth x.text))
  | _ => throw (.misuse .wrongKind)

end WordSlot
