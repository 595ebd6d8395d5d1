import Mathlib.Algebra.Order.Field.Basic
import Mathlib.Data.Rat.Cast.Order
import Mathlib.Tactic
import WordSlot.Decimal.Shortest
import WordSlot.Proofs.Numbers

/-!
# Rounding to the nearest double

A quotient is rounded at the exponent at which it has fifty-three binary digits, or at the least exponent there is, and a half
goes to the even neighbour. Every quotient in the interval around a double that its neighbours leave to it is therefore rounded to
that double: half a step up and half a step down, a quarter down at a power of two, with the ends if the double is even.
-/

namespace WordSlot

namespace Double

/-! ## Powers -/

/-- Powers of two are positive. -/
theorem two_zpow_pos (q : Int) : (0 : ℚ) < 2 ^ q := zpow_pos (by norm_num) q

/-- Powers of ten are positive. -/
theorem ten_zpow_pos (k : Int) : (0 : ℚ) < 10 ^ k := zpow_pos (by norm_num) k

/-- A power as a fraction is positive above and below. -/
theorem powers_pos {base : Nat} (h : 0 < base) (e : Int) : 0 < (powers base e).1 ∧ 0 < (powers base e).2 :=
  ⟨Nat.pow_pos h, Nat.pow_pos h⟩

/-- The one power is the other times a power with an exponent of either sign. -/
theorem powers_eq {base : Nat} (h : 0 < base) (e : Int) : ((powers base e).1 : ℚ) = (base : ℚ) ^ e * (powers base e).2 := by
  have hbase : (base : ℚ) ≠ 0 := by positivity
  obtain ⟨n, rfl | rfl⟩ := e.eq_nat_or_neg
  · simp [powers]
  · simp [powers, hbase]

/-- Multiples of a power of two and of a power of ten, both scaled up to whole numbers. -/
theorem scaled_cast (n c : Nat) (q k : Int) :
    ∃ s : ℚ, 0 < s ∧ ((n * ((powers 10 k).2 * (powers 2 q).1) : Nat) : ℚ) = n * 2 ^ q * s ∧
      ((c * ((powers 10 k).1 * (powers 2 q).2) : Nat) : ℚ) = c * 10 ^ k * s := by
  obtain ⟨-, hten⟩ := powers_pos (by norm_num : 0 < 10) k
  obtain ⟨-, htwo⟩ := powers_pos (by norm_num : 0 < 2) q
  refine ⟨(powers 10 k).2 * (powers 2 q).2, by positivity, ?_, ?_⟩
  · push_cast
    rw [powers_eq (by norm_num : 0 < 2) q]
    push_cast
    ring
  · push_cast
    rw [powers_eq (by norm_num : 0 < 10) k]
    push_cast
    ring

/-- Comparing a double to a decimal is comparing whole numbers. -/
theorem scaled_le_iff (n c : Nat) (q k : Int) :
    n * ((powers 10 k).2 * (powers 2 q).1) ≤ c * ((powers 10 k).1 * (powers 2 q).2) ↔ (n : ℚ) * 2 ^ q ≤ c * 10 ^ k := by
  obtain ⟨s, hs, htwo, hten⟩ := scaled_cast n c q k
  rw [← @Nat.cast_le ℚ, htwo, hten]
  exact mul_le_mul_iff_of_pos_right hs

/-- The other way round too. -/
theorem scaled_ge_iff (n c : Nat) (q k : Int) :
    c * ((powers 10 k).1 * (powers 2 q).2) ≤ n * ((powers 10 k).2 * (powers 2 q).1) ↔ (c : ℚ) * 10 ^ k ≤ n * 2 ^ q := by
  obtain ⟨s, hs, htwo, hten⟩ := scaled_cast n c q k
  rw [← @Nat.cast_le ℚ, htwo, hten]
  exact mul_le_mul_iff_of_pos_right hs

/-! ## Whole numbers -/

/-- A whole number that none is nearer to `y` than, and the even one of two that are as near. -/
structure Nearest (y : ℚ) (n : Nat) : Prop where
  low : (n : ℚ) - 1 / 2 ≤ y
  high : y ≤ n + 1 / 2
  tie : y = n - 1 / 2 ∨ y = n + 1 / 2 → n % 2 = 0

/-- The rounded quotient in whole numbers: it is off by half of the divisor at most, and even where that is a tie. -/
theorem roundHalfEven_bounds (num : Nat) {den : Nat} (h : 0 < den) :
    den * (2 * roundHalfEven num den) ≤ 2 * num + den ∧ 2 * num ≤ den * (2 * roundHalfEven num den) + den ∧
      (den * (2 * roundHalfEven num den) = 2 * num + den ∨ 2 * num = den * (2 * roundHalfEven num den) + den →
        roundHalfEven num den % 2 = 0) := by
  have hr : num % den < den := Nat.mod_lt num h
  have hnum := Nat.div_add_mod num den
  unfold roundHalfEven
  dsimp only
  generalize num / den = a at hnum ⊢
  generalize num % den = r at hr hnum ⊢
  have hnext : den * (2 * (a + 1)) = 2 * (den * a) + 2 * den := by ring
  have hsame : den * (2 * a) = 2 * (den * a) := by ring
  split
  · rw [hsame]
    omega
  · split
    · rw [hnext]
      omega
    · rcases Nat.mod_two_eq_zero_or_one a with heven | hodd
      · rw [heven, Nat.add_zero, hsame]
        omega
      · rw [hodd, hnext]
        omega

/-- Rounding a fraction gives the nearest number, and the even one of two. -/
theorem roundHalfEven_nearest (num : Nat) {den : Nat} (h : 0 < den) : Nearest (num / den) (roundHalfEven num den) := by
  have hden : (0 : ℚ) < den := by positivity
  obtain ⟨hlow, hhigh, htie⟩ := roundHalfEven_bounds num h
  generalize roundHalfEven num den = n at hlow hhigh htie ⊢
  have hlow' : (den : ℚ) * (2 * n) ≤ 2 * num + den := by exact_mod_cast hlow
  have hhigh' : 2 * (num : ℚ) ≤ den * (2 * n) + den := by exact_mod_cast hhigh
  refine ⟨?_, ?_, fun hy => htie ?_⟩
  · rw [le_div_iff₀ hden]
    linarith
  · rw [div_le_iff₀ hden]
    linarith
  · rw [div_eq_iff hden.ne', div_eq_iff hden.ne'] at hy
    rcases hy with hy | hy
    · left
      have heq : (den : ℚ) * (2 * n) = 2 * num + den := by linarith
      exact_mod_cast heq
    · right
      have heq : 2 * (num : ℚ) = den * (2 * n) + den := by linarith
      exact_mod_cast heq

/-- Between the midpoints around a whole number there is no other nearest one, and at them only if the other is even. -/
theorem Nearest.unique {y : ℚ} {m n : Nat} (h : Nearest y n) (hlow : (m : ℚ) - 1 / 2 ≤ y) (hhigh : y ≤ m + 1 / 2)
    (hodd : m % 2 = 1 → (m : ℚ) - 1 / 2 < y ∧ y < m + 1 / 2) : n = m := by
  obtain ⟨hn, hn', htie⟩ := h
  rcases Nat.lt_trichotomy n m with hlt | heq | hgt
  · have hcast : (n : ℚ) + 1 ≤ m := by exact_mod_cast hlt
    have hmid : y = n + 1 / 2 := by linarith
    have hnext : m = n + 1 := by
      have hm : (m : ℚ) = n + 1 := by linarith
      exact_mod_cast hm
    have heven := htie (.inr hmid)
    have hstrict := (hodd (by omega)).1
    linarith
  · exact heq
  · have hcast : (m : ℚ) + 1 ≤ n := by exact_mod_cast hgt
    have hmid : y = n - 1 / 2 := by linarith
    have hnext : n = m + 1 := by
      have hn : (n : ℚ) = m + 1 := by linarith
      exact_mod_cast hn
    have heven := htie (.inl hmid)
    have hstrict := (hodd (by omega)).2
    linarith

/-! ## Quotients -/

/-- A number that is not zero has a bit. -/
theorem bitLength_pos {n : Nat} (h : 0 < n) : 0 < bitLength n := by
  simp [bitLength, h.ne']

/-- The number of binary digits bounds a number by powers of two. -/
theorem two_zpow_bitLength {n : Nat} (h : 0 < n) :
    (2 : ℚ) ^ ((bitLength n : Int) - 1) ≤ n ∧ (n : ℚ) < 2 ^ (bitLength n : Int) := by
  have hpos := bitLength_pos h
  have hlow : 2 ^ (bitLength n - 1) ≤ n := by
    by_contra hlt
    have hle := (bitLength_le_iff n (bitLength n - 1)).mpr (by omega)
    omega
  have hhigh : n < 2 ^ bitLength n := (bitLength_le_iff n _).mp le_rfl
  constructor
  · rw [← Nat.cast_pred hpos, zpow_natCast]
    exact_mod_cast hlow
  · rw [zpow_natCast]
    exact_mod_cast hhigh

/-- The exponent at which a quotient is rounded leaves it below fifty-three binary digits, and with fifty-three of them unless it
is the least. -/
structure RoundedAt (x : ℚ) (q : Int) : Prop where
  least : -1074 ≤ q
  below : x < 2 ^ 53 * 2 ^ q
  full : q = -1074 ∨ 2 ^ 52 * 2 ^ q ≤ x

/-- A quotient in steps of a power of two is a quotient of whole numbers. -/
theorem steps_eq (num den : Nat) (q : Int) :
    ((num * (powers 2 q).2 : Nat) : ℚ) / ((den * (powers 2 q).1 : Nat) : ℚ) = num / den / 2 ^ q := by
  obtain ⟨-, hdown⟩ := powers_pos (by norm_num : 0 < 2) q
  have hq := two_zpow_pos q
  have hne : ((powers 2 q).2 : ℚ) ≠ 0 := by positivity
  push_cast
  rw [powers_eq (by norm_num : 0 < 2) q, div_div]
  push_cast
  rw [← mul_assoc, mul_div_mul_right _ _ hne]

/-- The exponent at which the rounding tries first: the quotient has fifty-three or fifty-four binary digits there. -/
theorem guess_bounds {num den : Nat} (hnum : 0 < num) (hden : 0 < den) {g : Int}
    (hg : g = max ((bitLength num : Int) - bitLength den - 53) (-1074)) :
    (num / den : ℚ) < 2 ^ 54 * 2 ^ g ∧ (g = -1074 ∨ 2 ^ 52 * 2 ^ g ≤ (num / den : ℚ)) := by
  obtain ⟨hnlow, hnhigh⟩ := two_zpow_bitLength hnum
  obtain ⟨hdlow, hdhigh⟩ := two_zpow_bitLength hden
  have hdpos : (0 : ℚ) < den := by positivity
  have hadd : ∀ (n : Nat) (a : Int), (2 : ℚ) ^ n * 2 ^ a = 2 ^ (n + a) := fun n a => by
    rw [zpow_add₀ (by norm_num), zpow_natCast]
  rw [hadd, hadd]
  constructor
  · rw [div_lt_iff₀ hdpos]
    calc (num : ℚ) < 2 ^ (bitLength num : Int) := hnhigh
      _ ≤ 2 ^ ((54 : Nat) + g + ((bitLength den : Int) - 1)) := zpow_le_zpow_right₀ (by norm_num) (by push_cast; omega)
      _ = 2 ^ ((54 : Nat) + g) * 2 ^ ((bitLength den : Int) - 1) := zpow_add₀ (by norm_num) _ _
      _ ≤ 2 ^ ((54 : Nat) + g) * den := mul_le_mul_of_nonneg_left hdlow (two_zpow_pos _).le
  · by_cases hleast : g = -1074
    · exact .inl hleast
    · right
      rw [le_div_iff₀ hdpos]
      calc (2 : ℚ) ^ ((52 : Nat) + g) * den ≤ 2 ^ ((52 : Nat) + g) * 2 ^ (bitLength den : Int) :=
            mul_le_mul_of_nonneg_left hdhigh.le (two_zpow_pos _).le
        _ = 2 ^ ((52 : Nat) + g + (bitLength den : Int)) := (zpow_add₀ (by norm_num) _ _).symm
        _ = 2 ^ ((bitLength num : Int) - 1) := by congr 1; push_cast; omega
        _ ≤ num := hnlow

/-- A quotient is rounded to the nearest whole number of steps at that exponent. -/
theorem ofRatio_eq (negative : Bool) {num den : Nat} (hnum : 0 < num) (hden : 0 < den) :
    ∃ q n, RoundedAt (num / den) q ∧ Nearest ((num / den : ℚ) / 2 ^ q) n ∧
      ofRatio negative num den =
        if 2047 * 2 ^ 52 ≤ (q + 1074).toNat * 2 ^ 52 + n then infinity negative
        else ofParts negative ((q + 1074).toNat * 2 ^ 52 + n) := by
  have hnearest : ∀ q : Int,
      Nearest ((num / den : ℚ) / 2 ^ q) (roundHalfEven (num * (powers 2 q).2) (den * (powers 2 q).1)) := by
    intro q
    rw [← steps_eq]
    exact roundHalfEven_nearest _ (Nat.mul_pos hden (powers_pos (by norm_num) q).1)
  unfold ofRatio
  dsimp only
  generalize hg : max ((bitLength num : Int) - bitLength den - 53) (-1074) = g
  obtain ⟨hbelow, hfull⟩ := guess_bounds hnum hden hg.symm
  have hdpos : 0 < den * (powers 2 g).1 := Nat.mul_pos hden (powers_pos (by norm_num) g).1
  have hover : Nat.pow 2 53 ≤ num * (powers 2 g).2 / (den * (powers 2 g).1) ↔ 2 ^ 53 * 2 ^ g ≤ (num / den : ℚ) := by
    have hpos : (0 : ℚ) < ((den * (powers 2 g).1 : Nat) : ℚ) := by exact_mod_cast hdpos
    rw [← le_div_iff₀ (two_zpow_pos g), ← steps_eq, le_div_iff₀ hpos, Nat.le_div_iff_mul_le hdpos]
    exact_mod_cast Iff.rfl
  have hnext : (2 : ℚ) ^ (g + 1) = 2 ^ g * 2 := zpow_add_one₀ (by norm_num) g
  by_cases hlarge : 2 ^ 53 * 2 ^ g ≤ (num / den : ℚ)
  · rw [if_pos (hover.mpr hlarge)]
    refine ⟨g + 1, _, ⟨by omega, ?_, .inr ?_⟩, hnearest (g + 1), rfl⟩
    · rw [hnext]
      linarith
    · rw [hnext]
      linarith
  · rw [if_neg (mt hover.mp hlarge)]
    exact ⟨g, _, ⟨by omega, not_le.mp hlarge, hfull⟩, hnearest g, rfl⟩

/-! ## Doubles and what rounds to them -/

/-- The whole numbers and exponents of the positive finite doubles. -/
structure Positive (m : Nat) (q : Int) : Prop where
  pos : 0 < m
  lt : m < 2 ^ 53
  least : -1074 ≤ q
  most : q ≤ 971
  full : q = -1074 ∨ 2 ^ 52 ≤ m

/-- The lower end of what rounds to `m · 2 ^ q`, in quarters of a step. -/
def lowEnd (m : Nat) (q : Int) : Nat := if m == Nat.pow 2 52 && -1074 < q then 4 * m - 1 else 4 * m - 2

/-- A number that rounds to `m · 2 ^ q`. -/
structure RoundsTo (m : Nat) (q : Int) (x : ℚ) : Prop where
  low : (lowEnd m q : ℚ) * 2 ^ (q - 2) ≤ x
  high : x ≤ (4 * m + 2 : Nat) * 2 ^ (q - 2)
  inner : m % 2 = 1 → (lowEnd m q : ℚ) * 2 ^ (q - 2) < x ∧ x < (4 * m + 2 : Nat) * 2 ^ (q - 2)

section

variable {m : Nat} {q : Int} {x : ℚ}

/-- What lies strictly between the ends of the interval rounds to the double. -/
theorem RoundsTo.of_between (hlow : (lowEnd m q : ℚ) * 2 ^ (q - 2) < x) (hhigh : x < (4 * m + 2) * 2 ^ (q - 2)) :
    RoundsTo m q x := by
  have hcast : x < (4 * m + 2 : Nat) * 2 ^ (q - 2) := by exact_mod_cast hhigh
  exact ⟨hlow.le, hcast.le, fun _ => ⟨hlow, hcast⟩⟩

/-- A unit is four quarters. -/
theorem two_zpow_quarter (q : Int) : (2 : ℚ) ^ q = 4 * 2 ^ (q - 2) := by
  rw [zpow_sub₀ (by norm_num)]
  norm_num
  ring

/-- The lower end is half a step down, but for a power of two, where the steps below are half as long. -/
theorem lowEnd_cast (h : Positive m q) :
    ((lowEnd m q : ℚ) = 4 * m - 2 ∧ ¬(m = 2 ^ 52 ∧ -1074 < q)) ∨ ((lowEnd m q : ℚ) = 4 * m - 1 ∧ m = 2 ^ 52 ∧ -1074 < q) := by
  have hpos := h.pos
  have hpower : (m == Nat.pow 2 52 && decide (-1074 < q)) = true ↔ m = 2 ^ 52 ∧ -1074 < q := by
    simp only [Bool.and_eq_true, beq_iff_eq, decide_eq_true_eq]
    rfl
  unfold lowEnd
  by_cases hm : m = 2 ^ 52 ∧ -1074 < q
  · rw [if_pos (hpower.mpr hm), Nat.cast_sub (by omega)]
    push_cast
    exact .inr ⟨rfl, hm⟩
  · rw [if_neg (mt hpower.mp hm), Nat.cast_sub (by omega)]
    push_cast
    exact .inl ⟨rfl, hm⟩

/-- The low end is no lower than half a unit below. -/
theorem le_lowEnd (h : Positive m q) : (4 * m - 2 : ℚ) ≤ lowEnd m q := by
  rcases lowEnd_cast h with ⟨hlow, -⟩ | ⟨hlow, -⟩
  · rw [hlow]
  · linarith

/-- In steps, what rounds to a double lies between the midpoints around it. -/
theorem RoundsTo.steps (h : Positive m q) (hx : RoundsTo m q x) :
    (m : ℚ) - 1 / 2 ≤ x / 2 ^ q ∧ x / 2 ^ q ≤ m + 1 / 2 ∧
      (m % 2 = 1 → (m : ℚ) - 1 / 2 < x / 2 ^ q ∧ x / 2 ^ q < m + 1 / 2) := by
  have hq := two_zpow_pos q
  have hquarter := two_zpow_quarter q
  obtain ⟨hlow, hhigh, hinner⟩ := hx
  push_cast at hhigh hinner
  have hscaled := mul_le_mul_of_nonneg_right (le_lowEnd h) (two_zpow_pos (q - 2)).le
  rw [le_div_iff₀ hq, div_le_iff₀ hq, lt_div_iff₀ hq, div_lt_iff₀ hq, hquarter]
  refine ⟨by linarith, by linarith, fun hodd => ?_⟩
  obtain ⟨hlow, hhigh⟩ := hinner hodd
  exact ⟨by linarith, by linarith⟩

/-- What rounds to a positive double is positive. -/
theorem RoundsTo.pos (h : Positive m q) (hx : RoundsTo m q x) : 0 < x := by
  have hm : (1 : ℚ) ≤ m := by exact_mod_cast h.pos
  have hlow := le_lowEnd h
  calc 0 < (lowEnd m q : ℚ) * 2 ^ (q - 2) := mul_pos (by linarith) (two_zpow_pos _)
    _ ≤ x := hx.low

/-- What rounds to a double is rounded at its exponent, unless it lies below a power of two, where it is rounded up at the
exponent before. -/
theorem RoundsTo.exponent (h : Positive m q) (hx : RoundsTo m q x) {p : Int} (hp : RoundedAt x p) :
    p = q ∨ p = q - 1 ∧ m = 2 ^ 52 ∧ (2 ^ 53 : ℚ) - 1 / 2 ≤ x / 2 ^ p := by
  have hstep := two_zpow_pos (q - 2)
  have hquarter := two_zpow_quarter q
  rcases lt_trichotomy p q with hlt | heq | hgt
  · right
    -- All that rounds to `m · 2 ^ q` has the digits of `q`, but for what lies just below the least number that has them.
    have hfull : 2 ^ 52 ≤ m := h.full.resolve_left (by have := hp.least; omega)
    have hhalf : (2 : ℚ) ^ (q - 1) = 2 * 2 ^ (q - 2) := by
      rw [show q - 1 = q - 2 + 1 by ring, zpow_add_one₀ (by norm_num)]
      ring
    have hpow : (2 : ℚ) ^ p ≤ 2 ^ (q - 1) := zpow_le_zpow_right₀ (by norm_num) (by omega)
    have hends : (lowEnd m q : ℚ) < 2 ^ 54 := by
      refine lt_of_mul_lt_mul_right ?_ hstep.le
      calc (lowEnd m q : ℚ) * 2 ^ (q - 2) ≤ x := hx.low
        _ < 2 ^ 53 * 2 ^ p := hp.below
        _ ≤ 2 ^ 53 * 2 ^ (q - 1) := mul_le_mul_of_nonneg_left hpow (by norm_num)
        _ = 2 ^ 54 * 2 ^ (q - 2) := by rw [hhalf]; ring
    rcases lowEnd_cast h with ⟨hlow, hpower⟩ | ⟨hlow, rfl, hleast⟩
    · exfalso
      have hnext : (2 ^ 52 : ℚ) + 1 ≤ m := by
        have hne : 2 ^ 52 + 1 ≤ m := by have := hp.least; omega
        exact_mod_cast hne
      linarith
    · have hx' : ((2 ^ 53 : ℚ) - 1 / 2) * 2 ^ (q - 1) ≤ x := by
        have hlow' := hx.low
        rw [hlow] at hlow'
        push_cast at hlow'
        rw [hhalf]
        linarith
      have hexponent : p = q - 1 := by
        by_contra hne
        have hpow : (2 : ℚ) ^ p ≤ 2 ^ (q - 2) := zpow_le_zpow_right₀ (by norm_num) (by omega)
        have hbelow := hp.below
        rw [hhalf] at hx'
        linarith
      rw [hexponent, le_div_iff₀ (two_zpow_pos _)]
      exact ⟨rfl, rfl, hx'⟩
  · exact .inl heq
  · exfalso
    have hfull : 2 ^ 52 * 2 ^ p ≤ x := hp.full.resolve_left (by have := h.least; omega)
    have hm : (m : ℚ) + 1 ≤ 2 ^ 53 := by exact_mod_cast h.lt
    have hpow : (2 : ℚ) ^ (q + 1) ≤ 2 ^ p := zpow_le_zpow_right₀ (by norm_num) (by omega)
    rw [zpow_add_one₀ (by norm_num)] at hpow
    have hhigh := hx.high
    push_cast at hhigh
    nlinarith

/-- Whatever rounds to a double is rounded to it. -/
theorem ofRatio_of_roundsTo (negative : Bool) (h : Positive m q) {num den : Nat} (hden : 0 < den)
    (hx : RoundsTo m q (num / den)) :
    ofRatio negative num den = ofParts negative ((q + 1074).toNat * 2 ^ 52 + m) := by
  have hnum : 0 < num := by
    have hpos := hx.pos h
    rw [div_pos_iff_of_pos_right (by positivity)] at hpos
    exact_mod_cast hpos
  obtain ⟨p, n, hp, hnearest, heq⟩ := ofRatio_eq negative hnum hden
  have hsame : (p + 1074).toNat * 2 ^ 52 + n = (q + 1074).toNat * 2 ^ 52 + m := by
    rcases hx.exponent h hp with rfl | ⟨rfl, rfl, hlow⟩
    · obtain ⟨hlow, hhigh, hinner⟩ := hx.steps h
      rw [hnearest.unique hlow hhigh hinner]
    · have hbelow : (num / den : ℚ) / 2 ^ (q - 1) ≤ 2 ^ 53 := (div_le_iff₀ (two_zpow_pos _)).mpr hp.below.le
      obtain rfl : n = 2 ^ 53 := by
        refine hnearest.unique ?_ ?_ fun hodd => absurd hodd (by norm_num)
        · push_cast
          exact hlow
        · push_cast
          linarith
      have hleast := hp.least
      omega
  have hlt := h.lt
  have hmost := h.most
  rw [heq, hsame, if_neg (by omega)]

/-! ## Decimals -/

/-- The number of decimal digits bounds a number by powers of ten. -/
theorem ten_zpow_digits {c : Nat} (h : 0 < c) :
    (10 : ℚ) ^ (((Nat.toDigits 10 c).length : Int) - 1) ≤ c ∧ (c : ℚ) < 10 ^ ((Nat.toDigits 10 c).length : Int) := by
  have hpos : 0 < (Nat.toDigits 10 c).length := List.length_pos_of_ne_nil Nat.toDigits_ne_nil
  have hlow : 10 ^ ((Nat.toDigits 10 c).length - 1) ≤ c := by
    by_contra hlt
    by_cases hone : (Nat.toDigits 10 c).length - 1 = 0
    · rw [hone] at hlt
      omega
    · have hle := (Nat.length_toDigits_le_iff (by norm_num : 1 < 10) (Nat.pos_of_ne_zero hone)).mpr (not_le.mp hlt)
      omega
  have hhigh : c < 10 ^ (Nat.toDigits 10 c).length := (Nat.length_toDigits_le_iff (by norm_num) hpos).mp le_rfl
  constructor
  · rw [← Nat.cast_pred hpos, zpow_natCast]
    exact_mod_cast hlow
  · rw [zpow_natCast]
    exact_mod_cast hhigh

/-- The largest power of two of a double is within a power of ten that the reader takes. -/
theorem two_zpow_le_ten : (2 : ℚ) ^ (1076 : Int) ≤ 10 ^ (400 : Int) := by
  calc (2 : ℚ) ^ (1076 : Int) ≤ 2 ^ (3 * 400 : Int) := zpow_le_zpow_right₀ (by norm_num) (by norm_num)
    _ = (2 ^ (3 : Int)) ^ (400 : Int) := zpow_mul 2 3 400
    _ ≤ 10 ^ (400 : Int) := zpow_le_zpow_left₀ (by norm_num) (by norm_num) (by norm_num)

/-- What rounds to a positive finite double is neither too small nor too large to be worked out. -/
theorem RoundsTo.moderate (h : Positive m q) (hx : RoundsTo m q x) : (10 : ℚ) ^ (-400 : Int) ≤ x ∧ x < 10 ^ (400 : Int) := by
  have hm : (1 : ℚ) ≤ m := by exact_mod_cast h.pos
  have hm' : (m : ℚ) ≤ 2 ^ 53 := by exact_mod_cast h.lt.le
  have hleast := h.least
  have hmost := h.most
  constructor
  · calc (10 : ℚ) ^ (-400 : Int) ≤ 2 ^ (-1076 : Int) := by
          rw [zpow_neg, zpow_neg]
          exact inv_anti₀ (two_zpow_pos _) two_zpow_le_ten
      _ ≤ 2 ^ (q - 2) := zpow_le_zpow_right₀ (by norm_num) (by omega)
      _ ≤ lowEnd m q * 2 ^ (q - 2) := le_mul_of_one_le_left (two_zpow_pos _).le (by have := le_lowEnd h; linarith)
      _ ≤ x := hx.low
  · calc x ≤ (4 * m + 2 : Nat) * 2 ^ (q - 2) := hx.high
      _ ≤ 2 ^ (56 : Int) * 2 ^ (q - 2) :=
        mul_le_mul_of_nonneg_right (by push_cast; linarith) (two_zpow_pos _).le
      _ = 2 ^ (56 + (q - 2)) := (zpow_add₀ (by norm_num) _ _).symm
      _ < 2 ^ (1076 : Int) := zpow_lt_zpow_right₀ (by norm_num) (by omega)
      _ ≤ 10 ^ (400 : Int) := two_zpow_le_ten

/-- A decimal that rounds to a double is read as it. -/
theorem ofDecimal_of_roundsTo (negative : Bool) (h : Positive m q) {c : Nat} {k : Int} (hx : RoundsTo m q (c * 10 ^ k)) :
    ofDecimal negative c k = ofParts negative ((q + 1074).toNat * 2 ^ 52 + m) := by
  have hk := ten_zpow_pos k
  have hc : 0 < c := by
    have hpos := (mul_pos_iff_of_pos_right hk).mp (hx.pos h)
    exact_mod_cast hpos
  obtain ⟨hlow, hhigh⟩ := hx.moderate h
  obtain ⟨hdlow, hdhigh⟩ := ten_zpow_digits hc
  have hsmall : ¬((Nat.toDigits 10 c).length : Int) + k < -400 := by
    intro hsize
    have hlt : (c : ℚ) * 10 ^ k < 10 ^ (-400 : Int) := by
      calc (c : ℚ) * 10 ^ k < 10 ^ ((Nat.toDigits 10 c).length : Int) * 10 ^ k := mul_lt_mul_of_pos_right hdhigh hk
        _ = 10 ^ (((Nat.toDigits 10 c).length : Int) + k) := (zpow_add₀ (by norm_num) _ _).symm
        _ ≤ 10 ^ (-400 : Int) := zpow_le_zpow_right₀ (by norm_num) (by omega)
    linarith
  have hlarge : ¬400 < ((Nat.toDigits 10 c).length : Int) + k := by
    intro hsize
    have hle : (10 : ℚ) ^ (400 : Int) ≤ c * 10 ^ k := by
      calc (10 : ℚ) ^ (400 : Int) ≤ 10 ^ (((Nat.toDigits 10 c).length : Int) - 1 + k) :=
            zpow_le_zpow_right₀ (by norm_num) (by omega)
        _ = 10 ^ (((Nat.toDigits 10 c).length : Int) - 1) * 10 ^ k := zpow_add₀ (by norm_num) _ _
        _ ≤ c * 10 ^ k := mul_le_mul_of_nonneg_right hdlow hk.le
    linarith
  obtain ⟨-, hdown⟩ := powers_pos (by norm_num : 0 < 10) k
  have hquotient : ((c * (powers 10 k).1 : Nat) : ℚ) / (powers 10 k).2 = c * 10 ^ k := by
    have hne : ((powers 10 k).2 : ℚ) ≠ 0 := by positivity
    push_cast
    rw [powers_eq (by norm_num : 0 < 10) k, div_eq_iff hne]
    push_cast
    ring
  rw [← hquotient] at hx
  unfold ofDecimal
  dsimp only
  rw [if_neg (by simp [hc.ne', hsmall]), if_neg hlarge]
  exact ofRatio_of_roundsTo negative h hdown hx

end

/-! ## Bits -/

variable {x : Double} {negative : Bool} {m : Nat} {q : Int}

/-- A double has a sign, an exponent and a fraction. -/
theorem exists_bits (x : Double) : ∃ sign exponent fraction, sign < 2 ∧ exponent < 2048 ∧ fraction < 2 ^ 52 ∧
    x.bits.toNat = exponent * 2 ^ 52 + fraction + sign * 2 ^ 63 ∧ x.isNegative = (sign == 1) ∧
    x.bits.toNat / Nat.pow 2 52 % 2048 = exponent ∧ x.bits.toNat % Nat.pow 2 52 = fraction := by
  have hbits := x.bits.toNat_lt
  refine ⟨x.bits.toNat / Nat.pow 2 63, _, _, ?_, ?_, ?_, ?_, rfl, rfl, rfl⟩
  all_goals norm_num; omega

/-- A double is made of its sign and the rest. -/
theorem ofParts_eq {rest sign : Nat} (h : x.bits.toNat = rest + sign * 2 ^ 63) (hsign : sign < 2) :
    ofParts (sign == 1) rest = x := by
  have hsum : rest + (if (sign == 1) = true then Nat.pow 2 63 else 0) = x.bits.toNat := by
    rw [h]
    interval_cases sign <;> simp
  rw [ofParts, hsum, UInt64.ofNat_toNat]

/-- An infinite double is the infinity of its sign. -/
theorem infinity_of_magnitude (h : x.magnitude = .infinite negative) : infinity x.isNegative = x := by
  obtain ⟨sign, exponent, fraction, hsign, hexponent, hfraction, hbits, hneg, hshift, hmask⟩ := exists_bits x
  unfold magnitude at h
  simp only [hshift, hmask, beq_iff_eq] at h
  split at h
  · rename_i hlast
    split at h
    · rename_i hzero
      rw [hneg]
      exact ofParts_eq (by rw [hbits, hlast, hzero]; rfl) hsign
    · nomatch h
  · split at h <;> nomatch h

/-- A finite double is put together again from its parts, which are those of zero or of a positive double. -/
theorem finite_of_magnitude (h : x.magnitude = .finite negative m q) :
    ofParts x.isNegative ((q + 1074).toNat * 2 ^ 52 + m) = x ∧ (m = 0 ∧ q = -1074 ∨ Positive m q) := by
  obtain ⟨sign, exponent, fraction, hsign, hexponent, hfraction, hbits, hneg, hshift, hmask⟩ := exists_bits x
  unfold magnitude at h
  simp only [hshift, hmask, beq_iff_eq] at h
  rw [hneg]
  split at h
  · split at h <;> nomatch h
  · rename_i hlast
    split at h
    · rename_i hzero
      obtain ⟨-, rfl, rfl⟩ := Magnitude.finite.inj h
      refine ⟨ofParts_eq (by rw [hbits, hzero]; rfl) hsign, ?_⟩
      by_cases hm : fraction = 0
      · exact .inl ⟨hm, rfl⟩
      · exact .inr ⟨by omega, by omega, by omega, by omega, .inl rfl⟩
    · rename_i hnormal
      obtain ⟨-, rfl, rfl⟩ := Magnitude.finite.inj h
      have hq : ((exponent : Int) - 1075 + 1074).toNat = exponent - 1 := by omega
      have hpow : Nat.pow 2 52 = 2 ^ 52 := rfl
      rw [hq, hpow]
      refine ⟨ofParts_eq (by rw [hbits]; omega) hsign, .inr ⟨by omega, by omega, by omega, by omega, .inr (by omega)⟩⟩

end Double

end WordSlot
