import WordSlot.Fault

/-!
# Version

The version of the program: that of the distribution it was installed as, or the base version marked as a development one.
-/

namespace WordSlot

namespace Version

/-- The version of the source. -/
def base : String := "0.1.0"

/-- The name of the distribution. -/
def distribution : String := "simple-storage"

/-- The distributions that are installed, with their versions. -/
def installed : List (String × String) := [(distribution, base)]

/-- A dash, an underscore or a point. -/
def isSeparator (code : Nat) : Bool := code == '-'.toNat || code == '_'.toNat || code == '.'.toNat

/-- A distribution's name for comparing: small letters, and one underscore for each run of separators. -/
def normalize : List Nat → List Nat
  | [] => []
  | code :: rest =>
    if isSeparator code then
      match rest with
      | next :: _ => if isSeparator next then normalize rest else '_'.toNat :: normalize rest
      | [] => ['_'.toNat]
    else Text.lowerCode code :: normalize rest

/-- The version of a distribution. A name is needed. -/
def ofDistribution (name : Text) : Except Fault String :=
  if name.isEmpty then throw (.misuse .wrongValue)
  else match installed.find? fun d => normalize (Text.ofString d.1).codes == normalize name.codes with
    | some d => pure d.2
    | none => pure (base ++ "+dev")

/-- The version of the program. -/
def program : String := base

end Version

end WordSlot
