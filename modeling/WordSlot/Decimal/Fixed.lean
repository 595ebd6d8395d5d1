import WordSlot.Decimal.Shortest

/-!
# A chosen number of places

A double with a given number of places behind the point, with or without an exponent, or with a given number of digits in
whichever of the two is shorter. Digits are those of the exact value, rounded to nearest, a half to the even neighbour.
-/

namespace WordSlot

namespace Fixed

/-- More digits than any double has: it lies below `10 ^ 309` and is a multiple of `2 ^ -1074`. What is asked for beyond them
is zeros. -/
def maxDigits : Nat := 1400

/-- Zeros for what is asked for beyond the digits of any double. -/
def zerosBeyond (asked : Nat) : List Char := List.replicate (asked - maxDigits) '0'

/-- `m · 2 ^ q / 10 ^ k` to the nearest whole number. -/
def rounded (m : Nat) (q k : Int) : Nat :=
  let (twoUp, twoDown) := Double.powers 2 q
  let (tenUp, tenDown) := Double.powers 10 k
  Double.roundHalfEven (m * twoUp * tenDown) (twoDown * tenUp)

/-- Digits with a point in front of the last `places`; the point is kept without places if `point` says so. -/
def pointed (point : Bool) (places : Nat) (ds : List Char) : List Char :=
  let ds := List.replicate (places + 1 - ds.length) '0' ++ ds
  let whole := ds.take (ds.length - places)
  let fraction := ds.drop (ds.length - places)
  if places == 0 then (if point then whole ++ ['.'] else whole) else whole ++ '.' :: fraction

/-- A positive double with a number of places. -/
def positionalText (point : Bool) (places m : Nat) (q : Int) : List Char :=
  let exact := min places maxDigits
  pointed point exact (Nat.toDigits 10 (rounded m q (-(exact : Int)))) ++ zerosBeyond places

/-- The first `places + 1` digits of a double and the exponent of the first of them; zero has zeros. -/
def leading (places m : Nat) (q : Int) : Nat × Int :=
  if m == 0 then (0, 0)
  else
    let e := Decimal.leadingExponent m q
    let n := rounded m q (e - places)
    if n == Nat.pow 10 (places + 1) then (Nat.pow 10 places, e + 1) else (n, e)

/-- A positive double with a number of places and an exponent. -/
def exponentialText (point : Bool) (places m : Nat) (q : Int) : List Char :=
  let exact := min places maxDigits
  let (n, e) := leading exact m q
  pointed point exact (Nat.toDigits 10 n) ++ zerosBeyond places ++ (exponentText e).toList

/-- Drops the zeros at the end of a fraction, and the point if nothing is left behind it. -/
def dropZeros (cs : List Char) : List Char :=
  if cs.contains '.' then trimEnd (· == '.') (trimEnd (· == '0') cs) else cs

/-- A positive double with a number of digits: with an exponent if that is below `-4` or not below the number of digits. -/
def generalText (point : Bool) (digits m : Nat) (q : Int) : List Char :=
  let exact := min (max digits 1) maxDigits
  let (n, e) := leading (exact - 1) m q
  let tidy (cs : List Char) := if point then cs ++ zerosBeyond digits else dropZeros cs
  if -4 ≤ e && e < exact then tidy (positionalText point ((exact : Int) - 1 - e).toNat m q)
  else tidy (pointed point (exact - 1) (Nat.toDigits 10 n)) ++ (exponentText e).toList

end Fixed

end WordSlot
