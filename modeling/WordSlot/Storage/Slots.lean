import WordSlot.Bytes

/-!
# Slots

The mapping from keys to values that a backend holds.
-/

namespace WordSlot

/-- Values by key, each key once. -/
abbrev Slots := List (Bytes × Bytes)

namespace Slots

/-- The value under a key. -/
def get? (s : Slots) (key : Bytes) : Option Bytes := s.lookup key

/-- Puts a value under a key; a key that is there keeps its place. -/
def put (key value : Bytes) : Slots → Slots
  | [] => [(key, value)]
  | (k, v) :: rest => if k = key then (k, value) :: rest else (k, v) :: put key value rest

/-- Order of byte strings: byte by byte, a string before those it begins. -/
def before : Bytes → Bytes → Bool
  | [], _ => true
  | _ :: _, [] => false
  | a :: as, b :: bs => if a = b then before as bs else a < b

/-- The slots in ascending order of their keys. -/
def sorted (s : Slots) : Slots := s.mergeSort fun a b => before a.1 b.1

end Slots

end WordSlot
