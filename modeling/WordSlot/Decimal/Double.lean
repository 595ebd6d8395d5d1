import WordSlot.Bytes

/-!
# Double-precision numbers

A double is held by its 64 bits and worked on exactly: it is not a number, infinite, or a whole number times a power of two.
A quotient is rounded to the nearest double, and a half goes to the even neighbour.
-/

namespace WordSlot

/-- A double-precision number by its bits. -/
structure Double where
  bits : UInt64
deriving DecidableEq, Inhabited

/-- What a double stands for; `finite neg m q` is `m · 2 ^ q`, negated if `neg`. -/
inductive Magnitude where
  | notANumber
  | infinite (negative : Bool)
  | finite (negative : Bool) (m : Nat) (q : Int)
deriving DecidableEq

namespace Double

/-- The sign bit. -/
def isNegative (x : Double) : Bool := x.bits.toNat / Nat.pow 2 63 == 1

/-- Takes the bits apart: sign, eleven bits of exponent, fifty-two of fraction. -/
def magnitude (x : Double) : Magnitude :=
  let exponent : Nat := x.bits.toNat / Nat.pow 2 52 % 2048
  let fraction := x.bits.toNat % Nat.pow 2 52
  if exponent == 2047 then (if fraction == 0 then .infinite x.isNegative else .notANumber)
  else if exponent == 0 then .finite x.isNegative fraction (-1074)
  else .finite x.isNegative (fraction + Nat.pow 2 52) ((exponent : Int) - 1075)

/-- The double with the given sign and the given remaining 63 bits. -/
def ofParts (negative : Bool) (rest : Nat) : Double := ⟨UInt64.ofNat (rest + if negative then Nat.pow 2 63 else 0)⟩

/-- The quiet one that is not a number. -/
def notANumber : Double := ofParts false (2047 * Nat.pow 2 52 + Nat.pow 2 51)

/-- Infinity of either sign. -/
def infinity (negative : Bool) : Double := ofParts negative (2047 * Nat.pow 2 52)

/-- A quotient to the nearest whole number, a half to the even one. -/
def roundHalfEven (num den : Nat) : Nat :=
  let q := num / den
  let r := num % den
  if 2 * r < den then q else if den < 2 * r then q + 1 else q + q % 2

/-- The powers of a base to an exponent and to its opposite, of which the one with the negative exponent is given as one. -/
def powers (base : Nat) (e : Int) : Nat × Nat := (Nat.pow base e.toNat, Nat.pow base (-e).toNat)

/-- The double nearest to `num / den` (both positive), infinity beyond the largest. -/
def ofRatio (negative : Bool) (num den : Nat) : Double :=
  let guess : Int := max ((bitLength num : Int) - bitLength den - 53) (-1074)
  let scaled (q : Int) : Nat × Nat := let (up, down) := powers 2 q; (num * down, den * up)
  let q := let (n, d) := scaled guess; if Nat.pow 2 53 ≤ n / d then guess + 1 else guess
  let (n, d) := scaled q
  let rest := (q + 1074).toNat * Nat.pow 2 52 + roundHalfEven n d
  if 2047 * Nat.pow 2 52 ≤ rest then infinity negative else ofParts negative rest

/-- The double nearest to `digits · 10 ^ exponent`. Exponents far beyond the range of doubles need no arithmetic. -/
def ofDecimal (negative : Bool) (digits : Nat) (exponent : Int) : Double :=
  let size := (Nat.toDigits 10 digits).length + exponent
  if digits == 0 || size < -400 then ofParts negative 0
  else if 400 < size then infinity negative
  else let (up, down) := powers 10 exponent; ofRatio negative (digits * up) down

/-- The whole number that a double is, if it is one. -/
def toInt? (x : Double) : Option Int :=
  match x.magnitude with
  | .finite negative m q =>
    let (up, down) := powers 2 q
    if m * up % down == 0 then
      let n : Int := (m * up / down : Nat)
      some (if negative then -n else n)
    else none
  | _ => none

/-- A finite double without its fraction. -/
def truncate? (x : Double) : Option Int :=
  match x.magnitude with
  | .finite negative m q =>
    let (up, down) := powers 2 q
    let n : Int := (m * up / down : Nat)
    some (if negative then -n else n)
  | _ => none

/-- Zero of either sign. -/
def isZero (x : Double) : Bool := x.toInt? == some 0

end Double

end WordSlot
