import WordSlot.Fault.Report

/-!
# Domain faults

A number is no 256-bit word, or does not fit the type it is meant for.
-/

namespace WordSlot

/-- A number that is no 256-bit word or does not fit its type. -/
inductive DomainFault where
  | notInteger (name : Text) (kind : String)
  | negative (name : Text) (value : String)
  | tooWide (name : Text) (bits : Nat)
  | wordNotBytes (kind : String)
  | wordTooLong (length : Nat)
  | truthValue
  | notNumeral (quotedText : String)
  | notNumber (kind : String)
  | belowZero (width value : String)
  | overflow (width : String) (bits : Nat)
deriving DecidableEq

namespace DomainFault

/-- What a domain fault says. -/
def message : DomainFault → Text
  | .notInteger name kind => name ++ " must be an integer, got " ++ kind
  | .negative name _ => name ++ " is negative"
  | .tooWide name _ => name ++ " does not fit in 256 bits"
  | .wordNotBytes kind => "word must be bytes, got " ++ kind
  | .wordTooLong length => "word too long (" ++ decimalNat length ++ " > 32 bytes)"
  | .truthValue => "uint value must not be a bool"
  | .notNumeral quotedText => "not an unsigned integer: " ++ quotedText
  | .notNumber kind => "uint value must be int or str, got " ++ kind
  | .belowZero width _ => "uint" ++ width ++ " cannot be negative"
  | .overflow width _ => "uint" ++ width ++ " overflow"

/-- What a domain fault tells besides. -/
def context : DomainFault → List (Text × Value)
  | .notInteger name kind => [("name", .text name), ("type", .text kind)]
  | .negative name value => [("name", .text name), ("value", .text value)]
  | .tooWide name bits => [("name", .text name), ("bits", .int bits)]
  | .wordNotBytes _ => []
  | .wordTooLong length => [("length", .int length)]
  | .truthValue => [("type", .text "bool")]
  | .notNumeral _ => []
  | .notNumber kind => [("type", .text kind)]
  | .belowZero _ value => [("value", .text value)]
  | .overflow _ bits => [("bits", .int bits)]

end DomainFault

end WordSlot
