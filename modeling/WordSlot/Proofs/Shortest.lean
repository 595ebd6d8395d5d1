import WordSlot.Proofs.Rounding

/-!
# The shortest decimal is read back

The decimal that is written for a double lies in the interval of what rounds to that double, so it is read as the same double.
Seventeen digits are always enough: the grid of decimals with that many is finer than the interval.
-/

namespace WordSlot

namespace Decimal

open Double

section

variable {m c : Nat} {q k : Int}

/-! ## The grid of decimals with one exponent -/

/-- The test for a decimal that rounds to `m · 2 ^ q`, in whole numbers. -/
def inside (m : Nat) (q k : Int) (c : Nat) : Bool :=
  let a := (powers 10 k).1 * (powers 2 (q - 2)).2
  let b := (powers 10 k).2 * (powers 2 (q - 2)).1
  if m % 2 == 0 then lowEnd m q * b ≤ c * a && c * a ≤ (4 * m + 2) * b
  else lowEnd m q * b < c * a && c * a < (4 * m + 2) * b

/-- The interval of a double holds just the decimals that round to it. -/
theorem inside_iff : inside m q k c = true ↔ RoundsTo m q (c * 10 ^ k) := by
  have hlow := scaled_le_iff (lowEnd m q) c (q - 2) k
  have hlow' := lt_iff_lt_of_le_iff_le (scaled_ge_iff (lowEnd m q) c (q - 2) k)
  have hhigh := scaled_ge_iff (4 * m + 2) c (q - 2) k
  have hhigh' := lt_iff_lt_of_le_iff_le (scaled_le_iff (4 * m + 2) c (q - 2) k)
  unfold inside
  dsimp only
  rcases Nat.mod_two_eq_zero_or_one m with hm | hm
  · simp only [hm, beq_self_eq_true, if_true, Bool.and_eq_true, decide_eq_true_eq, hlow, hhigh]
    constructor
    · intro h
      exact ⟨h.1, h.2, fun hodd => absurd hodd (by omega)⟩
    · intro h
      exact ⟨h.low, h.high⟩
  · simp only [hm, Nat.one_ne_zero, beq_iff_eq, if_false, Bool.and_eq_true, decide_eq_true_eq, hlow', hhigh']
    constructor
    · intro h
      exact ⟨h.1.le, h.2.le, fun _ => h⟩
    · intro h
      exact h.inner hm

/-- The decimal of the grid just below `m · 2 ^ q`. -/
def floorAt (m : Nat) (q k : Int) : Nat :=
  4 * m * ((powers 10 k).2 * (powers 2 (q - 2)).1) / ((powers 10 k).1 * (powers 2 (q - 2)).2)

/-- Of the two neighbours on the grid one that rounds to the double is taken, and either if both do. -/
theorem nearestAt_eq (m : Nat) (q k : Int) :
    ∃ c, (c = floorAt m q k ∨ c = floorAt m q k + 1) ∧
      nearestAt m q k =
        if inside m q k (floorAt m q k) && inside m q k (floorAt m q k + 1) then some c
        else if inside m q k (floorAt m q k) then some (floorAt m q k)
        else if inside m q k (floorAt m q k + 1) then some (floorAt m q k + 1)
        else none := by
  refine ⟨_, ?_, rfl⟩
  split_ifs
  · exact .inl rfl
  · exact .inr rfl
  · change floorAt m q k + floorAt m q k % 2 = _ ∨ floorAt m q k + floorAt m q k % 2 = _
    omega

/-- A nearest decimal lies in the interval. -/
theorem inside_of_nearestAt (h : nearestAt m q k = some c) : inside m q k c = true := by
  obtain ⟨d, hd, heq⟩ := nearestAt_eq m q k
  rw [heq] at h
  split_ifs at h with hboth hone hother
  · obtain rfl := Option.some.inj h
    rw [Bool.and_eq_true] at hboth
    rcases hd with hd | hd
    · rw [hd]
      exact hboth.1
    · rw [hd]
      exact hboth.2
  · obtain rfl := Option.some.inj h
    exact hone
  · obtain rfl := Option.some.inj h
    exact hother

/-- There is a nearest decimal if one of the two around the double lies in the interval. -/
theorem nearestAt_ne_none (h : inside m q k (floorAt m q k) = true ∨ inside m q k (floorAt m q k + 1) = true) :
    nearestAt m q k ≠ none := by
  obtain ⟨d, -, heq⟩ := nearestAt_eq m q k
  rw [heq]
  rcases h with h | h
  · simp only [h, Bool.true_and, if_true]
    split <;> exact nofun
  · simp only [h, Bool.and_true, if_true]
    split <;> exact nofun

/-- The neighbour below is at most one step of the grid away. -/
theorem floorAt_bounds (m : Nat) (q k : Int) :
    (floorAt m q k : ℚ) * 10 ^ k ≤ m * 2 ^ q ∧ (m : ℚ) * 2 ^ q < (floorAt m q k + 1) * 10 ^ k := by
  have hpos : 0 < (powers 10 k).1 * (powers 2 (q - 2)).2 :=
    Nat.mul_pos (powers_pos (by norm_num) k).1 (powers_pos (by norm_num) (q - 2)).2
  have hlow := (scaled_ge_iff (4 * m) (floorAt m q k) (q - 2) k).mp (Nat.div_mul_le_self _ _)
  have hhigh := (lt_iff_lt_of_le_iff_le (scaled_ge_iff (4 * m) (floorAt m q k + 1) (q - 2) k)).mp
    ((Nat.div_lt_iff_lt_mul hpos).mp (Nat.lt_succ_self _))
  push_cast at hlow hhigh
  rw [two_zpow_quarter q]
  exact ⟨by linarith, by linarith⟩

/-- A grid of which the double has at least seventeen digits is fine enough. -/
theorem nearestAt_of_fine (h : Positive m q) (hfine : (10 : ℚ) ^ k * 10 ^ 16 ≤ m * 2 ^ q) : ∃ c, nearestAt m q k = some c := by
  refine Option.ne_none_iff_exists'.mp (nearestAt_ne_none ?_)
  rw [inside_iff, inside_iff]
  obtain ⟨hbelow, habove⟩ := floorAt_bounds m q k
  have hk := ten_zpow_pos k
  have hstep := two_zpow_pos (q - 2)
  rw [two_zpow_quarter q] at hbelow habove hfine
  rcases lowEnd_cast h with ⟨hlow, -⟩ | ⟨hlow, hpower, -⟩
  · -- The grid is finer than a step, so one of the neighbours is less than half a step away.
    have hlt : (m : ℚ) ≤ 2 ^ 53 := by exact_mod_cast h.lt.le
    have hgrid : (10 : ℚ) ^ k < 4 * 2 ^ (q - 2) := by nlinarith
    by_cases hnear : (m : ℚ) * (4 * 2 ^ (q - 2)) - floorAt m q k * 10 ^ k < 2 * 2 ^ (q - 2)
    · left
      refine .of_between ?_ ?_
      · rw [hlow]
        linarith
      · linarith
    · right
      push_cast
      refine .of_between ?_ ?_
      · rw [hlow]
        linarith
      · linarith
  · -- Below a power of two the interval is shorter, but the neighbour above is less than half a step away.
    right
    have hm : (m : ℚ) = 2 ^ 52 := by exact_mod_cast hpower
    have hgrid : (10 : ℚ) ^ k < 2 * 2 ^ (q - 2) := by
      rw [hm] at hfine
      linarith
    push_cast
    refine .of_between ?_ ?_
    · rw [hlow]
      linarith
    · linarith

/-! ## The leading digit -/

-- The guess takes the logarithm of two to be `1233 / 4096`, which is a little too small.
theorem ten_pow_le_two_pow : 10 ^ 1233 ≤ 2 ^ 4096 := by decide +kernel

theorem two_pow_le_ten_pow : 2 ^ 4096 ≤ 2 * 10 ^ 1233 := by decide +kernel

/-- The guess of a leading power is not too large for a power of two. -/
theorem guess_nonneg (n : Nat) : (10 : ℚ) ^ ((n : Int) * 1233 - 4096) ≤ ((2 : ℚ) ^ (n : Int)) ^ 4096 := by
  calc (10 : ℚ) ^ ((n : Int) * 1233 - 4096) ≤ 10 ^ ((1233 * n : Nat) : Int) :=
        zpow_le_zpow_right₀ (by norm_num) (by push_cast; omega)
    _ = (10 ^ 1233 : Nat) ^ n := by rw [zpow_natCast, pow_mul, Nat.cast_pow, Nat.cast_ofNat]
    _ ≤ (2 ^ 4096 : Nat) ^ n := pow_le_pow_left₀ (Nat.cast_nonneg _) (Nat.cast_le.mpr ten_pow_le_two_pow) n
    _ = ((2 : ℚ) ^ (n : Int)) ^ 4096 := by
      rw [zpow_natCast, Nat.cast_pow, Nat.cast_ofNat, ← pow_mul, ← pow_mul, Nat.mul_comm]

/-- Nor is it for a negative power that a double can have. -/
theorem guess_negative {n : Nat} (h : n ≤ 1074) :
    (10 : ℚ) ^ (-(n : Int) * 1233 - 4096) ≤ ((2 : ℚ) ^ (-(n : Int))) ^ 4096 := by
  have hsmall : ∀ d, n ≤ d → 2 ^ n ≤ 10 ^ d := fun d hd =>
    (Nat.pow_le_pow_left (by norm_num) n).trans (Nat.pow_le_pow_right (by norm_num) hd)
  have hpow : (2 ^ 4096) ^ n ≤ 10 ^ (1233 * n + 4096) := by
    calc (2 ^ 4096) ^ n ≤ (2 * 10 ^ 1233) ^ n := Nat.pow_le_pow_left two_pow_le_ten_pow n
      _ = 2 ^ n * 10 ^ (1233 * n) := by rw [Nat.mul_pow, Nat.pow_mul]
      _ ≤ 10 ^ 4096 * 10 ^ (1233 * n) := Nat.mul_le_mul_right _ (hsmall 4096 (by omega))
      _ = 10 ^ (1233 * n + 4096) := by rw [← Nat.pow_add, Nat.add_comm]
  calc (10 : ℚ) ^ (-(n : Int) * 1233 - 4096) = (((10 ^ (1233 * n + 4096) : Nat) : ℚ))⁻¹ := by
        rw [Nat.cast_pow, Nat.cast_ofNat, ← zpow_natCast, ← zpow_neg]
        congr 1
        push_cast
        ring
    _ ≤ (((2 ^ 4096) ^ n : Nat) : ℚ)⁻¹ := inv_anti₀ (by positivity) (Nat.cast_le.mpr hpow)
    _ = ((2 : ℚ) ^ (-(n : Int))) ^ 4096 := by
      rw [Nat.cast_pow, Nat.cast_pow, Nat.cast_ofNat, zpow_neg, zpow_natCast, inv_pow, ← pow_mul, ← pow_mul, Nat.mul_comm]

/-- One below the guess for a power of two is never too large an exponent of ten. -/
theorem guess_reaches {t : Int} (h : -1074 ≤ t) : (10 : ℚ) ^ (Int.fdiv (t * 1233) 4096 - 1) ≤ 2 ^ t := by
  have hguess : Int.fdiv (t * 1233) 4096 * 4096 ≤ t * 1233 := by
    rw [Int.fdiv_eq_ediv_of_nonneg _ (by norm_num)]
    exact Int.ediv_mul_le _ (by norm_num)
  generalize Int.fdiv (t * 1233) 4096 = g at hguess ⊢
  -- Both sides are raised to the denominator of the guess, where powers of ten and of two can be compared.
  rw [← pow_le_pow_iff_left₀ (ten_zpow_pos _).le (two_zpow_pos _).le (by norm_num : 4096 ≠ 0)]
  calc ((10 : ℚ) ^ (g - 1)) ^ 4096 ≤ 10 ^ (t * 1233 - 4096) := by
        rw [← zpow_natCast, ← zpow_mul]
        exact zpow_le_zpow_right₀ (by norm_num) (by push_cast; omega)
    _ ≤ (2 ^ t) ^ 4096 := by
      obtain ⟨n, rfl | rfl⟩ := t.eq_nat_or_neg
      · exact guess_nonneg n
      · exact guess_negative (by omega)

/-- The leading power is not above the number. -/
theorem leadingExponent_le (h : Positive m q) : (10 : ℚ) ^ leadingExponent m q ≤ m * 2 ^ q := by
  have hreaches : ∀ e : Int, ((powers 10 e).1 * (powers 2 q).2 ≤ m * (powers 2 q).1 * (powers 10 e).2) ↔
      (10 : ℚ) ^ e ≤ m * 2 ^ q := by
    intro e
    have hscaled := scaled_ge_iff m 1 q e
    rw [Nat.one_mul, Nat.cast_one, one_mul] at hscaled
    rw [← hscaled, Nat.mul_comm (powers 10 e).2, Nat.mul_assoc]
  unfold leadingExponent
  dsimp only
  split
  · rename_i hnext
    exact (hreaches _).mp (of_decide_eq_true hnext)
  · split
    · rename_i hguess
      exact (hreaches _).mp (of_decide_eq_true hguess)
    · obtain ⟨hlow, -⟩ := two_zpow_bitLength h.pos
      have hleast := h.least
      have hpos := bitLength_pos h.pos
      calc (10 : ℚ) ^ (Int.fdiv (((bitLength m : Int) + q - 1) * 1233) 4096 - 1) ≤ 2 ^ ((bitLength m : Int) + q - 1) :=
            guess_reaches (by omega)
        _ = 2 ^ ((bitLength m : Int) - 1) * 2 ^ q := by
          rw [← zpow_add₀ (by norm_num)]
          congr 1
          ring
        _ ≤ m * 2 ^ q := mul_le_mul_of_nonneg_right hlow (two_zpow_pos q).le

/-! ## The shortest -/

/-- Zeros at the end do not count. -/
theorem withoutZeros_value (fuel : Nat) (d : Decimal) :
    ((withoutZeros fuel d).digits : ℚ) * 10 ^ (withoutZeros fuel d).exponent = d.digits * 10 ^ d.exponent := by
  induction fuel generalizing d with
  | zero => rfl
  | succ fuel ih =>
    rw [withoutZeros]
    split
    · rename_i hzero
      have hdigits : d.digits = d.digits / 10 * 10 := by omega
      rw [ih, zpow_add_one₀ (by norm_num)]
      nth_rewrite 2 [hdigits]
      push_cast
      ring
    · rfl

/-- The decimal that is chosen rounds to the double. -/
theorem roundsTo_shortest (h : Positive m q) : RoundsTo m q ((shortest m q).digits * 10 ^ (shortest m q).exponent) := by
  have hfine : (10 : ℚ) ^ (leadingExponent m q - (16 : Nat)) * 10 ^ 16 ≤ m * 2 ^ q := by
    rw [zpow_sub₀ (by norm_num), zpow_natCast, div_mul_cancel₀ _ (by norm_num)]
    exact leadingExponent_le h
  obtain ⟨c, hc⟩ := nearestAt_of_fine h hfine
  unfold shortest
  dsimp only
  split
  · rename_i d hfound
    obtain ⟨k, -, hk⟩ := List.exists_of_findSome?_eq_some hfound
    obtain ⟨c, hnearest, rfl⟩ := Option.map_eq_some_iff.mp hk
    rw [withoutZeros_value]
    exact inside_iff.mp (inside_of_nearestAt hnearest)
  · rename_i hnone
    have hlast := List.findSome?_eq_none_iff.mp hnone (leadingExponent m q - (16 : Nat)) (List.mem_map.mpr ⟨16, by simp, rfl⟩)
    rw [hc] at hlast
    nomatch hlast

end

end Decimal

end WordSlot
