import WordSlot.Proofs.FrameFaults

/-!
# Where counts stop being read

A count of any size is written, and one is read from ten bytes at most. Seven bits to a byte make `2 ^ 70` the first count that is
written in more: below it writing and reading undo each other at every position, and from it on reading stops at the tenth byte,
which says that another follows.
-/

namespace WordSlot

open Outcome

namespace Varint

/-- A count below a power of 128 takes at most as many bytes as its exponent says. -/
theorem length_encode_le {n k : Nat} (h : n < 128 ^ (k + 1)) : (encode n).length ≤ k + 1 := by
  induction k generalizing n with
  | zero => rw [encode_of_lt (by simpa using h), List.length_singleton]
  | succ k ih =>
    rcases Nat.lt_or_ge n 128 with hn | hn
    · rw [encode_of_lt hn, List.length_singleton]
      omega
    · have hq : n / 128 < 128 ^ (k + 1) := by
        rw [pow_succ] at h
        omega
      rw [encode_of_ge hn, List.length_cons]
      exact Nat.succ_le_succ (ih hq)

/-- The first `k` bytes of a count from `128 ^ k` on are there and each say that another follows. -/
theorem unended_take_encode {n k : Nat} (h : 128 ^ k ≤ n) : Unended ((encode n).take k) ∧ k ≤ (encode n).length := by
  induction k generalizing n with
  | zero => exact ⟨nofun, Nat.zero_le _⟩
  | succ k ih =>
    have hn : 128 ≤ n := (Nat.le_self_pow (Nat.succ_ne_zero k) 128).trans h
    have hq : 128 ^ k ≤ n / 128 := by
      rw [pow_succ] at h
      omega
    have hb : (UInt8.ofNat (n % 128 + 128)).toNat = n % 128 + 128 := by
      rw [UInt8.toNat_ofNat']
      omega
    obtain ⟨hunended, hlen⟩ := ih hq
    rw [encode_of_ge hn, List.take_succ_cons, List.length_cons]
    exact ⟨List.forall_mem_cons.mpr ⟨by omega, hunended⟩, Nat.succ_le_succ hlen⟩

theorem two_pow_seventy : (2 : Nat) ^ 70 = 128 ^ maxBytes := by norm_num [maxBytes]

/-- A count that takes more bytes than are read is too long, whatever follows it. -/
theorem malformed_encode {n : Nat} (h : 2 ^ 70 ≤ n) (rest : Bytes) : Malformed (encode n ++ rest) .countTooLong := by
  rw [two_pow_seventy] at h
  obtain ⟨hunended, hlen⟩ := unended_take_encode h
  refine ⟨?_, by rw [List.length_append]; omega⟩
  rwa [List.take_append_of_le_length hlen]

end Varint

theorem encodeCount_int (n : Nat) : encodeCount (.int n) = .ok (Varint.encode n) := by
  rw [encodeCount, if_neg (by omega)]
  rfl

/-- Reading a count at a position of a byte string fails exactly for what is wrong with the bytes there. -/
theorem decodeCount_eq_error_iff {b : Bytes} {k : Nat} {e : Fault} :
    decodeCount (.bytes b) k = .error e ↔ ∃ f, e = .abi f ∧ Varint.Malformed (b.drop k) f := by
  rw [decodeCount, Buffer.readAt_eq_error_iff, Varint.read_eq_error_iff]

/-- What is read as a count stands in the buffer, takes ten bytes at most, and is what writing the count gives. -/
theorem of_decodeCount_eq_ok {b : Bytes} {k n : Nat} {stop : Int} (h : decodeCount (.bytes b) k = .ok (n, stop)) :
    n < 2 ^ 70 ∧ k < stop ∧ stop ≤ min (b.length : Int) (k + 10) ∧
      Varint.encode n = (b.drop k).take (stop - k).toNat := by
  obtain ⟨hstands, hlt, rfl⟩ := decodeCount_eq_ok_iff.mp h
  have hpos := List.length_pos_iff.mpr (Varint.encode_ne_nil n)
  have hten : (Varint.encode n).length ≤ 10 := Varint.length_encode_le (k := 9) (by rwa [Varint.two_pow_seventy] at hlt)
  have hinside := hstands.length_le
  rw [List.length_drop] at hinside
  have htake : ((k + (Varint.encode n).length : Nat) - (k : Int)).toNat = (Varint.encode n).length := by omega
  refine ⟨hlt, by omega, by omega, ?_⟩
  rw [htake]
  exact List.prefix_iff_eq_take.mp hstands

/-- Writing and reading counts agree up to `2 ^ 70`, and no further. Every count is written. A count below `2 ^ 70` is read back
behind anything and in front of anything, and one from `2 ^ 70` on is refused as too long. In turn, reading a byte string at any
position either gives a count below `2 ^ 70`, and the position behind at most ten bytes that are what writing this count gives, or
is a call fault. -/
theorem counts_agree_below_cap :
    (∀ (n : Int) (p s : Bytes), 0 ≤ n → ∃ e, encodeCount (.int n) = .ok e ∧
      (n < 2 ^ 70 → decodeCount (.bytes (p ++ e ++ s)) p.length = .ok (n.toNat, (p.length + e.length : Nat))) ∧
      (2 ^ 70 ≤ n → decodeCount (.bytes (p ++ e ++ s)) p.length = .error (.abi .countTooLong))) ∧
    (∀ (buf : Bytes) (offset : Int), 0 ≤ offset →
      (∃ (n : Nat) (j : Int), decodeCount (.bytes buf) offset = .ok (n, j) ∧ n < 2 ^ 70 ∧
        offset < j ∧ j ≤ min (buf.length : Int) (offset + 10) ∧
        encodeCount (.int n) = .ok ((buf.drop offset.toNat).take (j - offset).toNat)) ∨
      ∃ f, decodeCount (.bytes buf) offset = .error (.abi f)) := by
  constructor
  · intro n p s hn
    obtain ⟨n, rfl⟩ := Int.eq_ofNat_of_zero_le hn
    have hbehind : (p ++ Varint.encode n ++ s).drop p.length = Varint.encode n ++ s := by
      rw [List.append_assoc, List.drop_left]
    refine ⟨Varint.encode n, encodeCount_int n, fun hlt => ?_, fun hge => ?_⟩
    · refine decodeCount_eq_ok_iff.mpr ⟨?_, by exact_mod_cast hlt, rfl⟩
      rw [hbehind]
      exact List.prefix_append _ _
    · refine decodeCount_eq_error_iff.mpr ⟨.countTooLong, rfl, ?_⟩
      rw [hbehind]
      exact Varint.malformed_encode (by exact_mod_cast hge) s
  · intro buf offset hoffset
    obtain ⟨k, rfl⟩ := Int.eq_ofNat_of_zero_le hoffset
    cases hread : decodeCount (.bytes buf) k with
    | error e =>
      obtain ⟨f, rfl, -⟩ := decodeCount_eq_error_iff.mp hread
      exact .inr ⟨f, rfl⟩
    | ok result =>
      obtain ⟨n, j⟩ := result
      obtain ⟨hlt, hlow, hhigh, hbytes⟩ := of_decodeCount_eq_ok hread
      exact .inl ⟨n, j, rfl, hlt, hlow, hhigh, by rw [encodeCount_int, hbytes, Int.toNat_natCast]⟩

/-- The law on both sides of the cap, with bytes before and behind that would continue a count, and at a position beyond the
buffer. -/
theorem counts_agree_below_cap_on_both_sides :
    (∃ e, encodeCount (.int (2 ^ 70 - 1)) = .ok e ∧
      decodeCount (.bytes ([0x80] ++ e ++ [0x80])) (1 : Nat) = .ok (2 ^ 70 - 1, (1 + e.length : Nat))) ∧
    (∃ e, encodeCount (.int (2 ^ 70)) = .ok e ∧
      decodeCount (.bytes ([0x80] ++ e ++ [0x80])) (1 : Nat) = .error (.abi .countTooLong)) ∧
    ∃ f, decodeCount (.bytes [1]) 5 = .error (.abi f) := by
  obtain ⟨hwritten, hread⟩ := counts_agree_below_cap
  refine ⟨?_, ?_, ?_⟩
  · obtain ⟨e, he, hback, -⟩ := hwritten (2 ^ 70 - 1) [0x80] [0x80] (by norm_num)
    exact ⟨e, he, hback (by norm_num)⟩
  · obtain ⟨e, he, -, hlong⟩ := hwritten (2 ^ 70) [0x80] [0x80] (by norm_num)
    exact ⟨e, he, hlong le_rfl⟩
  · rcases hread [1] 5 (by norm_num) with ⟨n, j, -, -, hlow, hhigh, -⟩ | hfault
    · simp only [List.length_singleton] at hhigh
      omega
    · exact hfault

end WordSlot
