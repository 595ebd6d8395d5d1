import WordSlot.Abi.Arguments
import WordSlot.Proofs.Numbers
import WordSlot.Proofs.Outcome

/-!
# Counts, frames and argument lists have one spelling

Reading a count, a frame or an argument list from the front of a byte string succeeds exactly on the bytes that writing gives,
whatever follows them. Each statement is an equivalence: from right to left the reader takes every written form, from left to
right it takes nothing else, so that truncated, overlong and padded forms are all refused.
-/

namespace WordSlot

open Outcome

/-! ## Counts -/

namespace Varint

theorem encode_of_lt {n : Nat} (h : n < 128) : encode n = [UInt8.ofNat n] := by
  rw [encode, dif_pos h]

theorem encode_of_ge {n : Nat} (h : 128 ≤ n) : encode n = UInt8.ofNat (n % 128 + 128) :: encode (n / 128) := by
  rw [encode, dif_neg (by omega)]

/-- A count of one byte is read back; zero only as a first byte. -/
theorem readGroups_small (allowed n : Nat) (first : Bool) (rest : Bytes) (hn : n < 128) (hz : first = true ∨ n ≠ 0) :
    readGroups (allowed + 1) first (encode n ++ rest) = .ok (n, rest) := by
  have hb : (UInt8.ofNat n).toNat = n := by
    rw [UInt8.toNat_ofNat']
    omega
  rw [encode_of_lt hn, List.singleton_append, readGroups, hb, if_pos hn]
  rcases hz with rfl | hz
  · simp
  · simp [hz]

/-- A count that has room is read back; zero only as a first byte. -/
theorem readGroups_encode (allowed n : Nat) (first : Bool) (rest : Bytes) (h : n < 128 ^ (allowed + 1))
    (hz : first = true ∨ n ≠ 0) : readGroups (allowed + 1) first (encode n ++ rest) = .ok (n, rest) := by
  induction allowed generalizing n first with
  | zero => exact readGroups_small 0 n first rest (by simpa using h) hz
  | succ allowed ih =>
    by_cases hn : n < 128
    · exact readGroups_small _ n first rest hn hz
    · have hb : (UInt8.ofNat (n % 128 + 128)).toNat = n % 128 + 128 := by
        rw [UInt8.toNat_ofNat']
        omega
      have hq : n / 128 < 128 ^ (allowed + 1) := by
        rw [pow_succ] at h
        omega
      rw [encode_of_ge (by omega), List.cons_append, readGroups, hb, if_neg (by omega), if_neg (by omega),
        ih (n / 128) false hq (.inr (by omega)), ok_bind]
      simp only [pure_eq_ok, Except.ok.injEq, Prod.mk.injEq, and_true]
      omega

/-- What is read as a count is its written form; a count of zero is read only as a first byte. -/
theorem eq_encode_of_readGroups {allowed n : Nat} {first : Bool} {b rest : Bytes}
    (h : readGroups allowed first b = .ok (n, rest)) :
    b = encode n ++ rest ∧ n < 128 ^ allowed ∧ (first = false → n ≠ 0) := by
  induction allowed generalizing n first b with
  | zero => cases b <;> simp [readGroups] at h
  | succ allowed ih =>
    cases b with
    | nil => simp [readGroups] at h
    | cons x xs =>
      have hx := x.toNat_lt
      rw [readGroups] at h
      by_cases hlow : x.toNat < 128
      · rw [if_pos hlow] at h
        split at h
        · simp at h
        · rename_i hz
          simp only [pure_eq_ok, Except.ok.injEq, Prod.mk.injEq] at h
          obtain ⟨rfl, rfl⟩ := h
          refine ⟨by rw [encode_of_lt hlow, UInt8.ofNat_toNat, List.singleton_append], ?_, ?_⟩
          · calc x.toNat < 128 := hlow
              _ ≤ 128 ^ (allowed + 1) := Nat.le_self_pow (by omega) 128
          · rintro rfl h0
            simp [h0] at hz
      · rw [if_neg hlow] at h
        split at h
        · simp at h
        · obtain ⟨⟨q, tail⟩, hq, hr⟩ := bind_eq_ok.mp h
          simp only [pure_eq_ok, Except.ok.injEq, Prod.mk.injEq] at hr
          obtain ⟨rfl, rfl⟩ := hr
          obtain ⟨rfl, hlt, hne⟩ := ih hq
          have hq0 := hne rfl
          have hmod : (x.toNat - 128 + 128 * q) % 128 + 128 = x.toNat := by omega
          have hdiv : (x.toNat - 128 + 128 * q) / 128 = q := by omega
          refine ⟨?_, ?_, fun _ => by omega⟩
          · rw [encode_of_ge (n := x.toNat - 128 + 128 * q) (by omega), hmod, hdiv, UInt8.ofNat_toNat, List.cons_append]
          · rw [pow_succ]
            omega

/-- Reading takes exactly the written forms of the counts below `2 ^ 70`. -/
theorem read_eq_ok_iff {n : Nat} {b rest : Bytes} : read b = .ok (n, rest) ↔ b = encode n ++ rest ∧ n < 2 ^ 70 := by
  have h70 : (2 : Nat) ^ 70 = 128 ^ maxBytes := by norm_num [maxBytes]
  constructor
  · intro h
    obtain ⟨hb, hlt, -⟩ := eq_encode_of_readGroups h
    exact ⟨hb, h70 ▸ hlt⟩
  · rintro ⟨rfl, hlt⟩
    rw [h70] at hlt
    exact readGroups_encode 9 n true rest hlt (.inl rfl)

end Varint

/-! ## Frames -/

namespace Frame

/-- The numbers that a frame's bytes can give: theirs, if there is no leading zero and it has at most `bits` digits. -/
theorem ofMagnitude_eq_ok_iff {bits : Int} {b : Bytes} {n : Nat} :
    ofMagnitude bits b = .ok n ↔ (1 < b.length → b.head? ≠ some 0) ∧ (bitLength b.toNat : Int) ≤ bits ∧ b.toNat = n := by
  unfold ofMagnitude
  by_cases hz : 1 < b.length && b.head? == some 0
  · rw [if_pos hz]
    simp only [Bool.and_eq_true, decide_eq_true_eq, beq_iff_eq] at hz
    simp [hz.1, hz.2]
  · rw [if_neg hz]
    simp only [Bool.and_eq_true, decide_eq_true_eq, beq_iff_eq, not_and] at hz
    by_cases hw : bits < bitLength b.toNat
    · rw [if_pos hw]
      simp only [bind_eq_ok, throw_eq_error]
      constructor
      · rintro ⟨_, -, ⟨⟩⟩
      · rintro ⟨-, h, -⟩
        omega
    · rw [if_neg hw, pure_eq_ok, Except.ok.injEq]
      exact ⟨fun h => ⟨hz, by omega, h⟩, fun h => h.2.2⟩

/-- Reading takes exactly the frames of the numbers of at most `bits` digits whose bytes can be counted. -/
theorem read_eq_ok_iff {bits : Int} {n : Nat} {b rest : Bytes} :
    read bits b = .ok (n, rest) ↔
      b = write n ++ rest ∧ (bitLength n : Int) ≤ bits ∧ (Bytes.magnitude n).length < 2 ^ 70 := by
  have hpos := Bytes.length_magnitude_pos n
  constructor
  · intro h
    simp only [read, bind_eq_ok, Prod.exists] at h
    obtain ⟨len, tail, hc, h⟩ := h
    obtain ⟨rfl, hlen⟩ := Varint.read_eq_ok_iff.mp hc
    split at h
    · simp at h
    · rename_i hne
      split at h
      · simp at h
      · rename_i htail
        obtain ⟨m, hm, h⟩ := bind_eq_ok.mp h
        simp only [pure_eq_ok, Except.ok.injEq, Prod.mk.injEq] at h
        obtain ⟨rfl, rfl⟩ := h
        obtain ⟨hz, hbits, rfl⟩ := ofMagnitude_eq_ok_iff.mp hm
        have htake : (tail.take len).length = len := by simp; omega
        have hmag : Bytes.magnitude (Bytes.toNat (tail.take len)) = tail.take len := by
          apply Bytes.magnitude_toNat _ _ hz
          exact List.ne_nil_of_length_pos (by omega)
        refine ⟨?_, hbits, by rw [hmag, htake]; exact hlen⟩
        rw [write, hmag, htake, List.append_assoc, List.take_append_drop]
  · rintro ⟨rfl, hbits, hlen⟩
    have hc : Varint.read (write n ++ rest) = .ok ((Bytes.magnitude n).length, Bytes.magnitude n ++ rest) :=
      Varint.read_eq_ok_iff.mpr ⟨by rw [write, List.append_assoc], hlen⟩
    have hm : ofMagnitude bits (Bytes.magnitude n) = .ok n :=
      ofMagnitude_eq_ok_iff.mpr ⟨Bytes.head?_magnitude n, by rwa [Bytes.toNat_magnitude], Bytes.toNat_magnitude n⟩
    rw [read, hc, ok_bind]
    simp only
    rw [if_neg (by omega), if_neg (by simp), List.take_left, hm, List.drop_left]
    rfl

end Frame

/-! ## Argument lists -/

theorem UIntType.bits_le (t : UIntType) : t.bits ≤ 256 := by
  have := t.valid
  simp only [validWidth, Bool.and_eq_true, decide_eq_true_eq] at this
  omega

/-- A number fits a type: it lies below the power of two of the type's width. -/
def UIntType.Fits (t : UIntType) (n : Nat) : Prop := n < 2 ^ t.bits

theorem UIntType.fits_iff (t : UIntType) (n : Nat) : t.Fits n ↔ (bitLength n : Int) ≤ t.bits := by
  rw [Int.ofNat_le, bitLength_le_iff]
  rfl

/-- Reading a number of a type takes exactly the frames of the numbers that fit it. -/
theorem Frame.read_type_eq_ok_iff {t : UIntType} {n : Nat} {b rest : Bytes} :
    Frame.read t.bits b = .ok (n, rest) ↔ b = Frame.write n ++ rest ∧ t.Fits n := by
  rw [Frame.read_eq_ok_iff, ← t.fits_iff]
  constructor
  · rintro ⟨hb, hfit, -⟩
    exact ⟨hb, hfit⟩
  · rintro ⟨hb, hfit⟩
    have hbits := (bitLength_le_iff n t.bits).mpr hfit
    have hlen := Bytes.length_magnitude_le (n := n) (k := 32) (by norm_num) (hbits.trans t.bits_le)
    exact ⟨hb, hfit, by omega⟩

namespace Arguments

/-- Reading one number for each type takes exactly the frames of fitting numbers one after another. -/
theorem readItems_eq_ok_iff {ts : List UIntType} {ns : List Nat} {b rest : Bytes} :
    readItems pure Frame.read ts b = .ok (ns, rest) ↔
      b = ns.flatMap Frame.write ++ rest ∧ List.Forall₂ UIntType.Fits ts ns := by
  induction ts generalizing ns b with
  | nil =>
    simp only [readItems, pure_eq_ok, Except.ok.injEq, Prod.mk.injEq, List.forall₂_nil_left_iff]
    constructor
    · rintro ⟨rfl, rfl⟩
      simp
    · rintro ⟨rfl, rfl⟩
      simp
  | cons t ts ih =>
    simp only [readItems, pure_eq_ok, ok_bind, bind_eq_ok, Prod.exists, Except.ok.injEq, Prod.mk.injEq]
    constructor
    · rintro ⟨n, tail, hn, ns', _, hns, rfl, rfl⟩
      obtain ⟨rfl, hfit⟩ := Frame.read_type_eq_ok_iff.mp hn
      obtain ⟨rfl, hfits⟩ := ih.mp hns
      exact ⟨by simp, .cons hfit hfits⟩
    · rintro ⟨rfl, hfits⟩
      cases hfits with
      | @cons _ n _ ns' hfit hfits =>
        refine ⟨n, ns'.flatMap Frame.write ++ rest, ?_, ns', rest, ih.mpr ⟨rfl, hfits⟩, rfl, rfl⟩
        exact Frame.read_type_eq_ok_iff.mpr ⟨by simp, hfit⟩

/-- Reading an argument list takes exactly the written lists of fitting numbers, of fewer than `2 ^ 70` of them. -/
theorem read_eq_ok_iff {ts : List UIntType} {ns : List Nat} {b rest : Bytes} :
    read ts b = .ok (ns, rest) ↔ b = write ns ++ rest ∧ List.Forall₂ UIntType.Fits ts ns ∧ ts.length < 2 ^ 70 := by
  simp only [read, bind_eq_ok, Prod.exists, checkCount]
  constructor
  · rintro ⟨count, tail, hc, _, hcheck, hitems⟩
    obtain ⟨rfl, hlt⟩ := Varint.read_eq_ok_iff.mp hc
    obtain ⟨rfl, hfits⟩ := readItems_eq_ok_iff.mp hitems
    split at hcheck
    · rename_i hcount
      subst hcount
      refine ⟨?_, hfits, hlt⟩
      rw [write, ← hfits.length_eq, List.append_assoc]
    · simp at hcheck
  · rintro ⟨rfl, hfits, hlt⟩
    refine ⟨ts.length, ns.flatMap Frame.write ++ rest, ?_, (), by simp, readItems_eq_ok_iff.mpr ⟨rfl, hfits⟩⟩
    exact Varint.read_eq_ok_iff.mpr ⟨by rw [write, hfits.length_eq, List.append_assoc], hlt⟩

end Arguments

/-! ## What writing takes -/

/-- A number passes the width check exactly as itself, if it is not negative and has at most `bits` digits. -/
theorem fitUInt_eq_ok_iff {bits n : Int} {m : Nat} : fitUInt bits n = .ok m ↔ n = m ∧ (bitLength m : Int) ≤ bits := by
  unfold fitUInt
  by_cases hneg : n < 0
  · rw [if_pos hneg]
    simp only [bind_eq_ok, throw_eq_error]
    constructor
    · rintro ⟨_, -, _, -, ⟨⟩⟩
    · rintro ⟨rfl, -⟩
      omega
  · obtain ⟨k, rfl⟩ := Int.eq_ofNat_of_zero_le (by omega : 0 ≤ n)
    rw [if_neg hneg, Int.toNat_natCast]
    by_cases hw : bits < bitLength k
    · rw [if_pos hw]
      simp only [bind_eq_ok, throw_eq_error]
      constructor
      · rintro ⟨_, -, ⟨⟩⟩
      · rintro ⟨hk, hm⟩
        rw [Int.ofNat_inj.mp hk] at hw
        omega
    · rw [if_neg hw, pure_eq_ok, Except.ok.injEq, Int.ofNat_inj]
      constructor
      · rintro rfl
        exact ⟨rfl, by omega⟩
      · exact fun h => h.1

/-- Whatever a caller's value is, it is taken as a number that fits. -/
theorem coerceUInt_fits {t : UIntType} {v : Value} {n : Nat} (h : coerceUInt t.bits v = .ok n) : t.Fits n := by
  rw [t.fits_iff]
  unfold coerceUInt at h
  split at h
  · simp at h
  · split at h
    · exact (fitUInt_eq_ok_iff.mp h).2
    · simp at h
  · exact (fitUInt_eq_ok_iff.mp h).2
  · simp at h

/-- A number that fits is taken as it is. -/
theorem coerceUInt_int {t : UIntType} {n : Nat} (h : t.Fits n) : coerceUInt t.bits (.int n) = .ok n :=
  fitUInt_eq_ok_iff.mpr ⟨rfl, (t.fits_iff n).mp h⟩

namespace Arguments

/-- Checking values against given types is checking each value against its type's width. -/
theorem coerceAll_types (ts : List UIntType) (vs : List Value) :
    coerceAll ((ts.map .type).zip vs) = (ts.zip vs).mapM fun tv => coerceUInt tv.1.bits tv.2 := by
  induction ts generalizing vs with
  | nil => rfl
  | cons t ts ih =>
    cases vs with
    | nil => rfl
    | cons v vs =>
      simp only [List.map_cons, List.zip_cons_cons, coerceAll, parseType, List.mapM_cons, pure_eq_ok, ok_bind, ih]

/-- The numbers that values are taken as fit their types, one for each. -/
theorem fits_of_coerceAll {ts : List UIntType} {vs : List Value} {ns : List Nat} (hlen : ts.length = vs.length)
    (h : coerceAll ((ts.map .type).zip vs) = .ok ns) : List.Forall₂ UIntType.Fits ts ns := by
  induction ts generalizing vs ns with
  | nil =>
    simp only [List.map_nil, List.zip_nil_left, coerceAll, pure_eq_ok, Except.ok.injEq] at h
    subst h
    exact .nil
  | cons t ts ih =>
    obtain ⟨v, vs, rfl⟩ := List.exists_cons_of_length_pos (by rw [← hlen]; simp : 0 < vs.length)
    simp only [List.map_cons, List.zip_cons_cons, coerceAll, parseType, pure_eq_ok, ok_bind, bind_eq_ok,
      Except.ok.injEq] at h
    obtain ⟨n, hn, ns, hns, rfl⟩ := h
    exact .cons (coerceUInt_fits hn) (ih (by simpa using hlen) hns)

/-- Numbers that fit their types are taken as they are. -/
theorem coerceAll_ints {ts : List UIntType} {ns : List Nat} (h : List.Forall₂ UIntType.Fits ts ns) :
    coerceAll ((ts.map .type).zip (ns.map fun (n : Nat) => .int n)) = .ok ns := by
  induction h with
  | nil => rfl
  | cons hfit _ ih => simp [coerceAll, parseType, coerceUInt_int hfit, ih]

/-- Numbers that fit their types are written as an argument list. -/
theorem encode_ints {ts : List UIntType} {ns : List Nat} (h : List.Forall₂ UIntType.Fits ts ns) :
    encode (ts.map .type) (ns.map fun (n : Nat) => .int n) = .ok (write ns) := by
  rw [encode, if_neg (by simp [h.length_eq]), coerceAll_ints h]
  rfl

/-- What is written for values of given types is the argument list of the numbers that they are taken as. -/
theorem encode_eq_ok_iff {ts : List UIntType} {vs : List Value} {b : Bytes} :
    encode (ts.map .type) vs = .ok b ↔
      ts.length = vs.length ∧ ∃ ns, coerceAll ((ts.map .type).zip vs) = .ok ns ∧ write ns = b := by
  unfold encode
  by_cases hlen : ts.length = vs.length
  · rw [if_neg (by simpa using hlen), map_eq_ok]
    simp [hlen]
  · rw [if_pos (by simpa using hlen)]
    simp [hlen]

end Arguments

end WordSlot
