import WordSlot.Fault

/-!
# Words

The numbers that the slot can hold: whole numbers from zero up to 256 binary digits, stored as thirty-two bytes, most
significant first. Nothing wraps; what is out of range is refused.
-/

namespace WordSlot

/-- The number of bytes of a word. -/
def wordBytes : Nat := 32

/-- The number of words, and the first number that is none. -/
def wordLimit : Nat := Nat.pow 2 256

/-- A value is a word: a number, not a truth value, in range. -/
def isWord : Value → Bool
  | .int n => 0 ≤ n && n < wordLimit
  | _ => false

/-- The word that a value is, with `name` for it in the refusal. -/
def requireWord (name : Text) : Value → Except Fault Nat
  | .int n =>
    if n < 0 then do throw (.domain (.negative name (← Value.decimalText n)))
    else if wordLimit ≤ n then throw (.domain (.tooWide name (bitLength n.toNat)))
    else pure n.toNat
  | v => throw (.domain (.notInteger name v.kind))

/-- A word as its thirty-two bytes. -/
def toWord (v : Value) : Except Fault Bytes := (requireWord "value" v).map (Bytes.ofNat wordBytes)

/-- The number that up to thirty-two bytes spell. -/
def ofWord (raw : Value) : Except Fault Nat :=
  match raw.toBytes? with
  | some b => if wordBytes < b.length then throw (.domain (.wordTooLong b.length)) else pure b.toNat
  | none => throw (.domain (.wordNotBytes raw.kind))

end WordSlot
