import WordSlot.Fault.Report

/-!
# Call faults

Calldata, return data, a manifest or a type does not follow the rules of the call surface.
-/

namespace WordSlot

/-- A call, a manifest or a type that does not follow the rules of the call surface. -/
inductive AbiFault where
  | invalidWidth (width : String)
  | specNotText (kind : String)
  | unsupportedType (quotedSpec : String)
  | lengthMismatch (types values : Nat)
  | countNotMinimal
  | countTooLong
  | countTruncated
  | magnitudeEmpty
  | payloadTruncated (need : Nat) (present : Int)
  | magnitudeNotMinimal
  | countMismatch (encoded : Nat) (expected : Nat)
  | namelessFunction
  | duplicateFunction (name : Text)
  | selectorCollision (first second : Text)
  | unknownFunction (quotedName : String) (known : List Text)
  | calldataNotBytes
  | calldataTooLarge (most length : Nat)
  | calldataTooShort (length : Nat)
  | unknownSelector (selector : Bytes)
  | trailingArguments (extra : Nat)
  | trailingReturn
  | wrongArity (signature : Text) (expected got : Nat)
  | notImplemented (name : Text)
deriving DecidableEq

namespace AbiFault

/-- What a call fault says. -/
def message : AbiFault → Text
  | .invalidWidth width => "invalid uint width: " ++ width
  | .specNotText kind => "type spec must be a string, got " ++ kind
  | .unsupportedType quotedSpec => "unsupported ABI type: " ++ quotedSpec
  | .lengthMismatch _ _ => "types and values length mismatch"
  | .countNotMinimal => "non-minimal uvarint"
  | .countTooLong => "uvarint too long"
  | .countTruncated => "truncated uvarint"
  | .magnitudeEmpty => "empty uint magnitude"
  | .payloadTruncated _ _ => "truncated payload"
  | .magnitudeNotMinimal => "non-minimal uint magnitude"
  | .countMismatch encoded expected =>
    "argument count mismatch: encoded=" ++ decimalNat encoded ++ " expected=" ++ decimalNat expected
  | .namelessFunction => "manifest function entry without a name"
  | .duplicateFunction name => "duplicate function in manifest: " ++ name
  | .selectorCollision first second => "selector collision: " ++ first ++ " / " ++ second
  | .unknownFunction quotedName _ => "unknown function: " ++ quotedName
  | .calldataNotBytes => "calldata must be bytes"
  | .calldataTooLarge most _ => "calldata too large (>" ++ decimalNat most ++ " bytes)"
  | .calldataTooShort _ => "calldata shorter than a selector"
  | .unknownSelector _ => "unknown selector"
  | .trailingArguments _ => "trailing bytes after arguments"
  | .trailingReturn => "trailing bytes after return value"
  | .wrongArity signature expected got =>
    signature ++ " takes " ++ decimalNat expected ++ " argument(s), got " ++ decimalNat got
  | .notImplemented name => "function not implemented by host: " ++ quote name

/-- What a call fault tells besides. -/
def context : AbiFault → List (Text × Value)
  | .lengthMismatch types values => [("types", .int types), ("values", .int values)]
  | .payloadTruncated need present => [("need", .int need), ("have", .int present)]
  | .countMismatch encoded expected => [("encoded", .int encoded), ("expected", .int expected)]
  | .unknownFunction _ known => [("known", .list (known.map .text))]
  | .calldataTooLarge _ length => [("length", .int length)]
  | .calldataTooShort length => [("length", .int length)]
  | .unknownSelector selector => [("selector", .text (hexMarked selector))]
  | .trailingArguments extra => [("extra", .int extra)]
  | .wrongArity _ expected got => [("expected", .int expected), ("got", .int got)]
  | _ => []

end AbiFault

end WordSlot
