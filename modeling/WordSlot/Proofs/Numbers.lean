import Mathlib.Data.List.Induction
import Mathlib.Tactic
import WordSlot.Bytes

/-!
# Bytes and the numbers they spell

Byte strings of a width and the numbers below `256 ^ width` correspond one to one, and a number's fewest bytes are the one
byte string that spells it without a leading zero. The frames of the call surface and the words of the slot rest on this.
-/

namespace WordSlot

/-- The number of binary digits is the least exponent whose power of two is above the number. -/
theorem bitLength_le_iff (n k : Nat) : bitLength n ≤ k ↔ n < 2 ^ k := by
  unfold bitLength
  by_cases h : n = 0
  · simp [h]
  · rw [if_neg h, ← Nat.log2_lt h, Nat.lt_iff_add_one_le]

namespace Bytes

/-- Putting a byte behind a byte string moves its number up one place. -/
theorem toNat_snoc (b : Bytes) (x : UInt8) : toNat (b ++ [x]) = b.toNat * 256 + x.toNat := by
  simp [toNat]

/-- The number of a byte string in front of another is moved up by as many places as the other has. -/
theorem toNat_append (a b : Bytes) : toNat (a ++ b) = a.toNat * 256 ^ b.length + b.toNat := by
  induction b using List.reverseRecOn with
  | nil => simp [toNat]
  | append_singleton b x ih =>
    rw [← List.append_assoc, toNat_snoc, ih, toNat_snoc, List.length_append, List.length_singleton, pow_succ]
    ring

/-- The first byte counts by the number of the others. -/
theorem toNat_cons (x : UInt8) (b : Bytes) : toNat (x :: b) = x.toNat * 256 ^ b.length + b.toNat := by
  have h := toNat_append [x] b
  simpa [toNat] using h

/-- A byte string spells a number with at most as many places. -/
theorem toNat_lt (b : Bytes) : b.toNat < 256 ^ b.length := by
  induction b using List.reverseRecOn with
  | nil => simp [toNat]
  | append_singleton b x ih =>
    have hx := x.toNat_lt
    rw [toNat_snoc, List.length_append, List.length_singleton, pow_succ]
    omega

/-- A number takes the width that it is given. -/
@[simp] theorem length_lowFirst (width n : Nat) : (lowFirst width n).length = width := by
  induction width generalizing n with
  | zero => rfl
  | succ width ih => simp [lowFirst, ih]

/-- With the highest byte first too. -/
@[simp] theorem length_ofNat (width n : Nat) : (ofNat width n).length = width := by
  simp [ofNat]

/-- One more place in front of the last: the number without its low byte, then that byte. -/
theorem ofNat_succ (width n : Nat) : ofNat (width + 1) n = ofNat width (n / 256) ++ [UInt8.ofNat (n % 256)] := by
  simp [ofNat, lowFirst]

/-- A number that fits is the one its bytes spell. -/
theorem toNat_ofNat (width n : Nat) (h : n < 256 ^ width) : toNat (ofNat width n) = n := by
  induction width generalizing n with
  | zero =>
    have hn : n = 0 := by simpa using h
    subst hn
    rfl
  | succ width ih =>
    have hq : n / 256 < 256 ^ width := by
      rw [pow_succ] at h
      omega
    have hb : (UInt8.ofNat (n % 256)).toNat = n % 256 := by
      rw [UInt8.toNat_ofNat']
      omega
    rw [ofNat_succ, toNat_snoc, ih _ hq, hb]
    omega

/-- A byte string is its number's bytes at its own width. -/
theorem ofNat_toNat (b : Bytes) : ofNat b.length b.toNat = b := by
  induction b using List.reverseRecOn with
  | nil => rfl
  | append_singleton b x ih =>
    have hx := x.toNat_lt
    have hq : (toNat b * 256 + x.toNat) / 256 = toNat b := by omega
    have hr : (toNat b * 256 + x.toNat) % 256 = x.toNat := by omega
    rw [toNat_snoc, List.length_append, List.length_singleton, ofNat_succ, hq, hr, ih, UInt8.ofNat_toNat]

/-! ## The fewest bytes -/

/-- The places that a number other than zero takes: it has a digit at the top one and none above. -/
theorem places_bounds {n : Nat} (h : n ≠ 0) :
    256 ^ ((bitLength n + 7) / 8 - 1) ≤ n ∧ n < 256 ^ ((bitLength n + 7) / 8) := by
  have hlow : 2 ^ n.log2 ≤ n := Nat.log2_self_le h
  have hhigh : n < 2 ^ (n.log2 + 1) := Nat.lt_log2_self
  have hb : bitLength n = n.log2 + 1 := by simp [bitLength, h]
  have h256 : ∀ k, (256 : Nat) ^ k = 2 ^ (8 * k) := fun k => by rw [pow_mul]; norm_num
  rw [hb, h256, h256]
  constructor
  · exact (Nat.pow_le_pow_right (by norm_num) (by omega)).trans hlow
  · exact hhigh.trans_le (Nat.pow_le_pow_right (by norm_num) (by omega))

/-- A number that is not zero takes a byte. -/
theorem places_pos {n : Nat} (h : n ≠ 0) : 0 < (bitLength n + 7) / 8 := by
  simp only [bitLength, h, if_false]
  omega

/-- The number of places is told by the two powers that a number lies between. -/
theorem places_eq {n k : Nat} (hlow : 256 ^ k ≤ n) (hhigh : n < 256 ^ (k + 1)) : (bitLength n + 7) / 8 = k + 1 := by
  have hn : n ≠ 0 := by
    have := Nat.pos_of_ne_zero (pow_ne_zero k (by norm_num : (256 : Nat) ≠ 0))
    omega
  obtain ⟨hl, hh⟩ := places_bounds hn
  have hpos := places_pos hn
  have h1 : (bitLength n + 7) / 8 - 1 < k + 1 := (Nat.pow_lt_pow_iff_right (by norm_num)).mp (hl.trans_lt hhigh)
  have h2 : k < (bitLength n + 7) / 8 := (Nat.pow_lt_pow_iff_right (by norm_num)).mp (hlow.trans_lt hh)
  omega

/-- A magnitude has as many bytes as its bits take. -/
theorem length_magnitude {n : Nat} (h : n ≠ 0) : (magnitude n).length = (bitLength n + 7) / 8 := by
  simp [magnitude, h]

/-- A magnitude has a byte. -/
theorem length_magnitude_pos (n : Nat) : 0 < (magnitude n).length := by
  by_cases h : n = 0
  · simp [magnitude, h]
  · rw [length_magnitude h]
    exact places_pos h

/-- A number of at most `8 * k` binary digits takes at most `k` bytes, if that is any. -/
theorem length_magnitude_le {n k : Nat} (hk : 0 < k) (h : bitLength n ≤ 8 * k) : (magnitude n).length ≤ k := by
  by_cases hn : n = 0
  · simp only [magnitude, hn, if_true, List.length_singleton]
    omega
  · rw [length_magnitude hn]
    omega

/-- A number is the one its fewest bytes spell. -/
@[simp] theorem toNat_magnitude (n : Nat) : toNat (magnitude n) = n := by
  by_cases h : n = 0
  · subst h
    rfl
  · rw [magnitude, if_neg h, toNat_ofNat _ _ (places_bounds h).2]

/-- The fewest bytes have no zero in front, except for the one byte of zero itself. -/
theorem head?_magnitude (n : Nat) (h : 1 < (magnitude n).length) : (magnitude n).head? ≠ some 0 := by
  have hn : n ≠ 0 := by
    rintro rfl
    simp [magnitude] at h
  intro hz
  obtain ⟨x, rest, hm⟩ := List.exists_cons_of_ne_nil (List.ne_nil_of_length_pos (length_magnitude_pos n))
  rw [hm, List.head?_cons, Option.some.injEq] at hz
  have hlen : rest.length = (bitLength n + 7) / 8 - 1 := by
    rw [← length_magnitude hn, hm, List.length_cons, Nat.add_sub_cancel]
  -- With a zero in front the remaining bytes would spell the number, one place too few for it.
  have hrest : toNat rest = n := by
    have := toNat_magnitude n
    rw [hm, hz, toNat_cons] at this
    simpa using this
  have hlt := toNat_lt rest
  rw [hrest, hlen] at hlt
  exact absurd (places_bounds hn).1 (by omega)

/-- A byte string without a zero in front, or of one byte, is the fewest bytes of the number it spells. -/
theorem magnitude_toNat (b : Bytes) (hne : b ≠ []) (hz : 1 < b.length → b.head? ≠ some 0) : magnitude b.toNat = b := by
  obtain ⟨x, rest, rfl⟩ := List.exists_cons_of_ne_nil hne
  by_cases hx : x = 0
  · -- A zero in front stands alone.
    have hrest : rest = [] := by
      by_contra hr
      exact hz (by simpa using List.length_pos_iff.mpr hr) (by simp [hx])
    subst hx hrest
    rfl
  · have hx' : 1 ≤ x.toNat := by
      rw [Nat.one_le_iff_ne_zero]
      exact fun h => hx (UInt8.toNat_inj.mp h)
    have hlow : 256 ^ rest.length ≤ toNat (x :: rest) := by
      rw [toNat_cons]
      nlinarith [Nat.pos_of_ne_zero (pow_ne_zero rest.length (by norm_num : (256 : Nat) ≠ 0))]
    have hhigh : toNat (x :: rest) < 256 ^ (rest.length + 1) := toNat_lt (x :: rest)
    have hn : toNat (x :: rest) ≠ 0 := by
      have := Nat.pos_of_ne_zero (pow_ne_zero rest.length (by norm_num : (256 : Nat) ≠ 0))
      omega
    rw [magnitude, if_neg hn, places_eq hlow hhigh]
    exact ofNat_toNat (x :: rest)

end Bytes

end WordSlot
