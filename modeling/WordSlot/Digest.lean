import WordSlot.Bytes

/-!
# SHA3-256

The 256-bit digest of the SHA-3 standard: a sponge of twenty-five 64-bit lanes that takes in 136 bytes at a time.
-/

namespace WordSlot

namespace Digest

/-- The bytes taken in by one turn of the sponge. -/
def rate : Nat := 136

/-- The constants of the twenty-four rounds. -/
def roundConstants : List UInt64 := [
  0x0000000000000001, 0x0000000000008082, 0x800000000000808a, 0x8000000080008000, 0x000000000000808b, 0x0000000080000001,
  0x8000000080008081, 0x8000000000008009, 0x000000000000008a, 0x0000000000000088, 0x0000000080008009, 0x000000008000000a,
  0x000000008000808b, 0x800000000000008b, 0x8000000000008089, 0x8000000000008003, 0x8000000000008002, 0x8000000000000080,
  0x000000000000800a, 0x800000008000000a, 0x8000000080008081, 0x8000000000008080, 0x0000000080000001, 0x8000000080008008]

/-- How far each lane turns, lane `x + 5 y` at place `x + 5 y`. -/
def rotations : List UInt64 := [0, 1, 62, 28, 27, 36, 44, 6, 55, 20, 3, 10, 43, 25, 39, 41, 45, 15, 21, 8, 18, 2, 61, 56, 14]

/-- A lane turned left. -/
def turn (x n : UInt64) : UInt64 := if n = 0 then x else (x <<< n) ||| (x >>> (64 - n))

/-- The lane at a place. -/
def lane (s : List UInt64) (i : Nat) : UInt64 := s.getD i 0

/-- Mixes every column into its two neighbours. -/
def mixColumns (s : List UInt64) : List UInt64 :=
  let parity := (List.range 5).map fun x => lane s x ^^^ lane s (x + 5) ^^^ lane s (x + 10) ^^^ lane s (x + 15) ^^^ lane s (x + 20)
  let shift := (List.range 5).map fun x => lane parity ((x + 4) % 5) ^^^ turn (lane parity ((x + 1) % 5)) 1
  (List.range 25).map fun i => lane s i ^^^ lane shift (i % 5)

/-- Turns every lane and moves it to its new place. -/
def turnAndMove (s : List UInt64) : List UInt64 :=
  let turned := List.zipWith turn s rotations
  (List.range 25).map fun i => let x := i % 5; let y := i / 5; lane turned ((x + 3 * y) % 5 + 5 * x)

/-- Combines every lane with the next two of its row. -/
def combineRows (s : List UInt64) : List UInt64 :=
  (List.range 25).map fun i =>
    let row := i - i % 5
    lane s i ^^^ (~~~(lane s (row + (i + 1) % 5)) &&& lane s (row + (i + 2) % 5))

/-- Adds a round's constant to the first lane. -/
def addConstant (c : UInt64) : List UInt64 → List UInt64
  | [] => []
  | x :: xs => (x ^^^ c) :: xs

/-- The permutation of the sponge. -/
def permute (s : List UInt64) : List UInt64 :=
  roundConstants.foldl (fun s c => addConstant c (combineRows (turnAndMove (mixColumns s)))) s

/-- A message with its padding: the mark `06`, zeros, and the top bit of the block's last byte. -/
def pad (m : Bytes) : Bytes :=
  let room := rate - m.length % rate
  if room = 1 then m ++ [0x86] else m ++ 0x06 :: List.replicate (room - 2) 0 ++ [0x80]

/-- Eight bytes as a lane, least significant first. -/
def laneOf (b : Bytes) : UInt64 := b.foldr (fun x n => n <<< 8 ||| x.toUInt64) 0

/-- The eight bytes of a lane, least significant first. -/
def bytesOf (x : UInt64) : Bytes := (List.range 8).map fun i => (x >>> (8 * UInt64.ofNat i)).toUInt8

/-- Takes in `blocks` blocks of a padded message. -/
def absorb : Nat → Bytes → List UInt64 → List UInt64
  | 0, _, s => s
  | blocks + 1, m, s =>
    let block := m.take rate
    let lanes := (List.range 25).map fun i => laneOf ((block.drop (8 * i)).take 8)
    absorb blocks (m.drop rate) (permute (List.zipWith (· ^^^ ·) s lanes))

/-- The digest of a message. -/
def sha3 (m : Bytes) : Bytes :=
  let padded := pad m
  (absorb (padded.length / rate) padded (List.replicate 25 0)).flatMap bytesOf |>.take 32

end Digest

end WordSlot
