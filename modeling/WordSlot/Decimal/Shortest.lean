import WordSlot.Decimal.Double
import WordSlot.Text.Numeral

/-!
# The shortest decimal

A double is written with the fewest digits that read back as the same double and, of those, the digits nearest to it. Numbers
from `0.0001` up to but not including `10 ^ 16` are written positionally, others with an exponent.
-/

namespace WordSlot

/-- `digits · 10 ^ exponent`. -/
structure Decimal where
  digits : Nat
  exponent : Int
deriving DecidableEq

namespace Decimal

/-- The largest `e` with `10 ^ e ≤ m · 2 ^ q`, for a positive `m`. -/
def leadingExponent (m : Nat) (q : Int) : Int :=
  let guess : Int := Int.fdiv (((bitLength m : Int) + q - 1) * 1233) 4096
  let reaches (e : Int) : Bool :=
    let (tenUp, tenDown) := Double.powers 10 e
    let (twoUp, twoDown) := Double.powers 2 q
    tenUp * twoDown ≤ m * twoUp * tenDown
  if reaches (guess + 1) then guess + 1 else if reaches guess then guess else guess - 1

/-- Of the two decimals with exponent `k` around `m · 2 ^ q`, the nearer of those that round to it: the double's rounding
interval reaches half a step up and half a step down, a quarter down at a power of two, and holds its ends iff `m` is even. -/
def nearestAt (m : Nat) (q k : Int) : Option Nat :=
  let (tenUp, tenDown) := Double.powers 10 k
  let (twoUp, twoDown) := Double.powers 2 (q - 2)
  let a := tenUp * twoDown
  let b := tenDown * twoUp

  let low := if m == Nat.pow 2 52 && -1074 < q then 4 * m - 1 else 4 * m - 2
  let high := 4 * m + 2
  let inside (c : Nat) : Bool :=
    if m % 2 == 0 then low * b ≤ c * a && c * a ≤ high * b else low * b < c * a && c * a < high * b
  let c := 4 * m * b / a
  let below := 4 * m * b - c * a
  let above := (c + 1) * a - 4 * m * b
  if inside c && inside (c + 1) then some (if below < above then c else if above < below then c + 1 else c + c % 2)
  else if inside c then some c
  else if inside (c + 1) then some (c + 1)
  else none

/-- Moves trailing zeros of the digits into the exponent; `fuel` bounds their number. -/
def withoutZeros : Nat → Decimal → Decimal
  | 0, d => d
  | fuel + 1, d => if d.digits ≠ 0 ∧ d.digits % 10 = 0 then withoutZeros fuel ⟨d.digits / 10, d.exponent + 1⟩ else d

/-- The shortest decimal that reads back as `m · 2 ^ q`, for a positive `m`: seventeen digits always do. -/
def shortest (m : Nat) (q : Int) : Decimal :=
  let e := leadingExponent m q
  let tries := (List.range 17).map fun (n : Nat) => e - n
  match tries.findSome? fun k => (nearestAt m q k).map fun c => (⟨c, k⟩ : Decimal) with
  | some d => withoutZeros 20 d
  | none => ⟨0, 0⟩

/-- The decimal exponent in scientific notation and its digits. -/
def scientific (d : Decimal) : List Char × Int :=
  let ds := Nat.toDigits 10 d.digits
  (ds, d.exponent + ds.length - 1)

end Decimal

/-- An exponent with its sign and at least two digits. -/
def exponentText (e : Int) : String :=
  let ds := decimalNat e.natAbs
  (if e < 0 then "e-" else "e+") ++ (if ds.length < 2 then "0" ++ ds else ds)

/-- Digits with the point behind the first `e + 1` of them, or with zeros in front when `e` is negative; at least one digit
stands on either side of the point. -/
def positional (ds : List Char) (e : Int) : String :=
  let whole := if e < 0 then ['0'] else (ds ++ List.replicate (e + 1 - ds.length).toNat '0').take (e + 1).toNat
  let fraction := if e < 0 then List.replicate (-e - 1).toNat '0' ++ ds else ds.drop (e + 1).toNat
  String.ofList (whole ++ '.' :: (if fraction.isEmpty then ['0'] else fraction))

/-- Text of a positive finite double. -/
def positiveText (m : Nat) (q : Int) : String :=
  let (ds, e) := (Decimal.shortest m q).scientific
  if -4 ≤ e && e < 16 then positional ds e
  else match ds with
    | [d] => String.ofList [d] ++ exponentText e
    | d :: rest => String.ofList (d :: '.' :: rest) ++ exponentText e
    | [] => exponentText e

/-- Text of a double, with the given spellings of infinity and of what is not a number. -/
def Double.textWith (infinity notANumber : String) (x : Double) : String :=
  let sign := if x.isNegative then "-" else ""
  match x.magnitude with
  | .notANumber => notANumber
  | .infinite _ => sign ++ infinity
  | .finite _ m q => sign ++ if m == 0 then "0.0" else positiveText m q

/-- Text of a double as a value shows it. -/
def Double.text (x : Double) : String := x.textWith "inf" "nan"

/-- Hex text of a positive double: the leading bit, thirteen hex digits behind the point, and the exponent of two, with its
sign. Numbers below the normal range have no leading bit. -/
def positiveHex (m : Nat) (q : Int) : String :=
  let exponent := q + 52
  let ds := Nat.toDigits 16 (m % Nat.pow 2 52)
  let fraction := String.ofList (List.replicate (13 - ds.length) '0' ++ ds)
  "0x" ++ decimalNat (m / Nat.pow 2 52) ++ "." ++ fraction ++ "p" ++ (if exponent < 0 then "" else "+") ++ decimalInt exponent

/-- Hex text of a double. -/
def Double.hexText (x : Double) : String :=
  let sign := if x.isNegative then "-" else ""
  match x.magnitude with
  | .notANumber => "nan"
  | .infinite _ => sign ++ "inf"
  | .finite _ m q => sign ++ if m == 0 then "0x0.0p+0" else positiveHex m q

namespace Double

/-- A run of decimal digits and what follows it. -/
def spanDigits (cs : List Char) : List Char × List Char := (cs.takeWhile Char.isDigit, cs.dropWhile Char.isDigit)

/-- The number that ASCII digits spell. -/
def digitsValue (cs : List Char) : Nat := cs.foldl (fun n c => n * 10 + (c.toNat - 48)) 0

/-- Reads an unsigned decimal: digits, optionally a point with digits, optionally an exponent. -/
def readUnsigned? (negative : Bool) (cs : List Char) : Option Double :=
  let (whole, rest) := spanDigits cs
  let (fraction, rest) := match rest with
    | '.' :: rest => spanDigits rest
    | rest => ([], rest)
  if whole.isEmpty && fraction.isEmpty then none
  else
    let make (e : Int) : Double := ofDecimal negative (digitsValue (whole ++ fraction)) (e - fraction.length)
    let exponent? (sign : Int) (ds : List Char) : Option Double :=
      if !ds.isEmpty && ds.all Char.isDigit then some (make (sign * digitsValue ds)) else none
    match rest with
    | [] => some (make 0)
    | e :: '-' :: ds => if e == 'e' || e == 'E' then exponent? (-1) ds else none
    | e :: '+' :: ds => if e == 'e' || e == 'E' then exponent? 1 ds else none
    | e :: ds => if e == 'e' || e == 'E' then exponent? 1 ds else none

/-- Reads the text of a double: a decimal with an optional sign, `inf` or `nan`. -/
def read? (s : String) : Option Double :=
  let (negative, cs) := match s.toList with
    | '-' :: rest => (true, rest)
    | cs => (false, cs)
  if cs == "inf".toList then some (infinity negative)
  else if cs == "nan".toList then some notANumber
  else readUnsigned? negative cs

end Double

end WordSlot
