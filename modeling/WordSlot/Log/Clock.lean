import WordSlot.Text.Numeral

/-!
# Times

The time of a log line: date, time of day with milliseconds, and the offset of universal time.
-/

namespace WordSlot

namespace Clock

/-- The date of a day counted from the first of January 1970, by eras of 400 years that start in March. -/
def civil (day : Int) : Int × Nat × Nat :=
  let shifted := day + 719468
  let era := shifted.fdiv 146097
  let ofEra := (shifted.fmod 146097).toNat
  let yearOfEra := (ofEra - ofEra / 1460 + ofEra / 36524 - ofEra / 146096) / 365
  let dayOfYear := ofEra - (365 * yearOfEra + yearOfEra / 4 - yearOfEra / 100)
  let march := (5 * dayOfYear + 2) / 153
  let month := if march < 10 then march + 3 else march - 9
  (yearOfEra + era * 400 + (if month ≤ 2 then 1 else 0), month, dayOfYear - (153 * march + 2) / 5 + 1)

/-- A number with zeros in front up to a width. -/
def padded (width n : Nat) : String :=
  let ds := decimalNat n
  String.ofList (List.replicate (width - ds.length) '0') ++ ds

/-- The text of a time in milliseconds since the start of 1970. -/
def text (milliseconds : Int) : String :=
  let (year, month, day) := civil (milliseconds.fdiv 86400000)
  let rest := (milliseconds.fmod 86400000).toNat
  padded 4 year.toNat ++ "-" ++ padded 2 month ++ "-" ++ padded 2 day ++ "T" ++ padded 2 (rest / 3600000) ++ ":" ++
    padded 2 (rest / 60000 % 60) ++ ":" ++ padded 2 (rest / 1000 % 60) ++ "." ++ padded 3 (rest % 1000) ++ "+00:00"

end Clock

end WordSlot
