import WordSlot.Text.Numeral
import WordSlot.Text.Quoted

/-!
# Refusals of the file system

Why a file operation failed, and the words for it.
-/

namespace WordSlot

/-- What the file system refuses: what a tree of files refuses by itself, or anything else, by its number and its words. -/
inductive FileCause where
  | notFound
  | busy
  | exists
  | notDirectory
  | isDirectory
  | notEmpty
  | nameTooLong
  | notPermitted
  | other (number : Nat) (words : String)
deriving DecidableEq

namespace FileCause

/-- The number and the words of a refusal. -/
def describe : FileCause → Nat × String
  | .notPermitted => (1, "Operation not permitted")
  | .notFound => (2, "No such file or directory")
  | .busy => (16, "Device or resource busy")
  | .exists => (17, "File exists")
  | .notDirectory => (20, "Not a directory")
  | .isDirectory => (21, "Is a directory")
  | .nameTooLong => (36, "File name too long")
  | .notEmpty => (39, "Directory not empty")
  | .other number words => (number, words)

end FileCause

/-- A refusal of the file system, for the paths given. -/
structure FileFault where
  cause : FileCause
  source : Text
  target : Option Text
deriving DecidableEq

/-- A file-system refusal in words. -/
def FileFault.text (f : FileFault) : String :=
  let (number, words) := f.cause.describe
  "[Errno " ++ decimalNat number ++ "] " ++ words ++ ": " ++ quote f.source ++
    match f.target with
    | some target => " -> " ++ quote target
    | none => ""

end WordSlot
