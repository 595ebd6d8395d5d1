import WordSlot.Storage.Backend

/-!
# The store

One slot that holds one word. Setting replaces it; getting gives the word set last, zero before any was. A number that is no
word is refused before the backend is touched.
-/

namespace WordSlot

/-- The key of the slot: thirty-two zero bytes. -/
def slotKey : Bytes := Bytes.ofNat wordBytes 0

namespace Site

/-- Sets the word. -/
def setWord (value : Value) : Act Site Unit := do
  let word ← Act.ofExcept (toWord value)
  setSlot (.bytes slotKey) (.bytes word)

/-- Gets the word. -/
def getWord : Act Site Nat := do
  match ← getSlot (.bytes slotKey) with
  | .none => pure 0
  | raw => Act.ofExcept (ofWord raw)

/-- The store on one line. -/
def storeLine (s : Site) : String := "ValueStore(backend=" ++ s.backend.kind ++ ")"

end Site

end WordSlot
