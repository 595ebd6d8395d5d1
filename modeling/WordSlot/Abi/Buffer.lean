import WordSlot.Abi.Arguments

/-!
# Reading at a position

Counts, frames and argument lists are read at a position of a buffer, and the position behind them is given back. A buffer is
usually a byte string; a caller may also hand over a sequence of numbers, of which only the cells that are looked at matter,
or count the position from the end.
-/

namespace WordSlot

/-- A buffer as a caller hands it over: bytes, a sequence of values, or values under keys. -/
inductive Buffer where
  | bytes (b : Bytes)
  | sequence (items : List Value)
  | keyed (entries : List (Value × Value))

namespace Buffer

/-- The buffer that a value is; one without a size is a misuse. -/
def ofValue : Value → Except Fault Buffer
  | .bytes b | .buffer b => pure (.bytes b)
  | .dict entries => pure (.keyed entries)
  | v => do pure (.sequence (← v.parts))

/-- The number of cells. -/
def size : Buffer → Nat
  | .bytes b => b.length
  | .sequence items => items.length
  | .keyed entries => entries.length

/-- A position counted from the front, where one below zero counts from the end. -/
def fromFront (size : Nat) (i : Int) : Int := if i < 0 then i + size else i

/-- The cell at a position. -/
def cell (buf : Buffer) (i : Int) : Except Fault Value :=
  let at? (items : List Value) : Except Fault Value :=
    let j := fromFront items.length i
    match if j < 0 then none else items[j.toNat]? with
    | some v => pure v
    | none => throw (.misuse .outOfBounds)
  match buf with
  | .bytes b => at? (b.map fun x => .int x.toNat)
  | .sequence items => at? items
  | .keyed entries =>
    match Value.lookup? (.int i) entries with
    | some v => pure v
    | none => throw (.misuse .missingKey)

/-- The cell at a position as a number. -/
def number (buf : Buffer) (i : Int) : Except Fault Int := do
  match (← buf.cell i).toInt? with
  | some n => pure n
  | none => throw (.misuse .wrongKind)

/-- The cells from one position up to another; keyed cells have no order to cut. -/
def slice (buf : Buffer) (i j : Int) : Except Fault (List Value) :=
  let cut (items : List Value) : List Value :=
    let low := (fromFront items.length i).toNat
    let high := (fromFront items.length j).toNat
    (items.take high).drop low
  match buf with
  | .bytes b => pure (cut (b.map fun x => .int x.toNat))
  | .sequence items => pure (cut items)
  | .keyed _ => throw (.misuse .wrongKind)

/-- Reads a count cell by cell: the low seven bits of a cell count, the eighth says that more follow, and a last cell that is
zero as it stands is one too many. -/
def readGroups (buf : Buffer) : Nat → Bool → Int → Except Fault (Nat × Int)
  | 0, _, _ => throw (.abi .countTooLong)
  | allowed + 1, first, i =>
    if buf.size ≤ i then throw (.abi .countTruncated)
    else do
      let b ← buf.number i
      if b / 128 % 2 = 0 then
        if !first && b == 0 then throw (.abi .countNotMinimal) else pure ((b % 128).toNat, i + 1)
      else if allowed = 0 then throw (.abi .countTooLong)
      else do
        let (n, j) ← readGroups buf allowed false (i + 1)
        pure ((b % 128).toNat + 128 * n, j)

/-- A cell as a byte. -/
def toByte (v : Value) : Except Fault UInt8 :=
  match v.toInt? with
  | some n => if 0 ≤ n && n < 256 then pure (UInt8.ofNat n.toNat) else throw (.misuse .wrongValue)
  | none => throw (.misuse .wrongKind)

/-- Reads a framed number cell by cell. -/
def readFrame (buf : Buffer) (bits i : Int) : Except Fault (Nat × Int) := do
  let (length, i) ← readGroups buf Varint.maxBytes true i
  if length = 0 then throw (.abi .magnitudeEmpty)
  else if buf.size < i + length then throw (.abi (.payloadTruncated length (buf.size - i)))
  else do
    let cells ← buf.slice i (i + length)
    match cells with
    | c :: _ :: _ => if c.same (.int 0) then throw (.abi .magnitudeNotMinimal)
    | _ => pure ()
    let n ← Frame.ofMagnitude bits (← cells.mapM toByte)
    pure (n, i + length)

/-- Runs a reader of byte strings at a position, or cell by cell where there is no such position. -/
def readAt {α : Type} (strict : Bytes → Except Fault (α × Bytes)) (loose : Buffer → Int → Except Fault (α × Int))
    (buf : Value) (offset : Int) : Except Fault (α × Int) := do
  match ← ofValue buf with
  | .bytes b =>
    if 0 ≤ offset then
      let (x, rest) ← strict (b.drop offset.toNat)
      pure (x, (b.length - rest.length : Nat))
    else loose (.bytes b) offset
  | other => loose other offset

end Buffer

/-- Reads a count at a position. -/
def decodeCount (buf : Value) (offset : Int) : Except Fault (Nat × Int) :=
  Buffer.readAt Varint.read (fun b => b.readGroups Varint.maxBytes true) buf offset

/-- Reads a framed number at a position. -/
def decodeUInt (bits : Int) (buf : Value) (offset : Int) : Except Fault (Nat × Int) :=
  Buffer.readAt (Frame.read bits) (fun b => b.readFrame bits) buf offset

/-- Reads a framed number of a named type at a position; the type is read first. -/
def decodeValue (type buf : Value) (offset : Int) : Except Fault (Nat × Int) := do
  decodeUInt (← parseType type).bits buf offset

/-- Reads an argument list at a position. The types are looked at when the count has been read, and each when it is reached. -/
def decodeArguments (buf types : Value) (offset : Int) : Except Fault (List Nat × Int) := do
  let (count, i) ← decodeCount buf offset
  let types ← types.parts
  Arguments.checkCount count types.length
  Arguments.readItems parseType (fun bits i => decodeUInt bits buf i) types i

end WordSlot
