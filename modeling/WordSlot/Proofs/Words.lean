import WordSlot.Proofs.Register

/-!
# Words and their bytes

A word and its thirty-two bytes tell each other: exactly the numbers in range have bytes, no two of them the same, and the bytes
are ordered as the numbers are. Fewer bytes spell a word too, the one whose bytes they are behind zeros.
-/

namespace WordSlot

open Outcome

namespace Bytes

/-- A byte string behind zeros. -/
def padded (width : Nat) (b : Bytes) : Bytes := List.replicate (width - b.length) 0 ++ b

/-- Bytes are padded to the width. -/
theorem length_padded {width : Nat} {b : Bytes} (h : b.length ≤ width) : (padded width b).length = width := by
  simp only [padded, List.length_append, List.length_replicate]
  omega

/-- Zeros in front add nothing to the number. -/
theorem toNat_padded (width : Nat) (b : Bytes) : toNat (padded width b) = b.toNat := by
  have hzeros : ∀ k, toNat (List.replicate k 0) = 0 := by
    intro k
    induction k with
    | zero => rfl
    | succ k ih =>
      rw [List.replicate_succ, toNat_cons, ih]
      simp
  rw [padded, toNat_append, hzeros]
  simp

/-- The bytes of a number at a width are the zeros and then any shorter bytes that spell it. -/
theorem ofNat_toNat_eq_padded {width : Nat} {b : Bytes} (h : b.length ≤ width) : ofNat width b.toNat = padded width b := by
  have hexact := ofNat_toNat (padded width b)
  rwa [length_padded h, toNat_padded] at hexact

/-- Byte strings of one length are ordered as the numbers that they spell: the first byte in which they differ decides. -/
theorem lt_iff_toNat_lt {a b : Bytes} (h : a.length = b.length) : a < b ↔ a.toNat < b.toNat := by
  induction a generalizing b with
  | nil =>
    obtain rfl := List.length_eq_zero_iff.mp h.symm
    simp [toNat]
  | cons x a ih =>
    obtain ⟨y, b, rfl⟩ := List.exists_cons_of_length_eq_add_one h.symm
    have hlen : a.length = b.length := by simpa using h
    have ha := toNat_lt a
    have hb := toNat_lt b
    rw [List.cons_lt_cons_iff, ih hlen, toNat_cons, toNat_cons, ← UInt8.toNat_inj, UInt8.lt_iff_toNat_lt]
    rw [hlen] at ha ⊢
    generalize 256 ^ b.length = place at ha hb ⊢
    -- The rest of a byte string is worth less than one place of the first byte.
    have hless : ∀ {x y m n : Nat}, m < place → x < y → x * place + m < y * place + n := by
      intro x y m n hm hxy
      calc x * place + m < x * place + place := by omega
        _ = (x + 1) * place := by ring
        _ ≤ y * place := Nat.mul_le_mul_right place hxy
        _ ≤ y * place + n := Nat.le_add_right _ _
    constructor
    · rintro (hxy | ⟨hxy, hrest⟩)
      · exact hless ha hxy
      · rw [hxy]
        omega
    · intro hlt
      rcases Nat.lt_trichotomy x.toNat y.toNat with hxy | hxy | hxy
      · exact .inl hxy
      · rw [hxy] at hlt
        exact .inr ⟨hxy, by omega⟩
      · exact absurd hlt (Nat.lt_asymm (hless hb hxy))

end Bytes

/-- Words are the numbers below the limit. -/
theorem isWord_iff {v : Value} : isWord v = true ↔ ∃ n : Nat, v = .int n ∧ n < wordLimit := by
  cases v with
  | int n =>
    simp only [isWord, Bool.and_eq_true, decide_eq_true_eq, Value.int.injEq]
    constructor
    · rintro ⟨hpos, hlt⟩
      exact ⟨n.toNat, by omega, by omega⟩
    · rintro ⟨m, rfl, hlt⟩
      omega
  | _ => simp [isWord]

/-- A value has bytes exactly if it is a word, and those of its number. -/
theorem toWord_eq_ok_iff {v : Value} {w : Bytes} :
    toWord v = .ok w ↔ ∃ n : Nat, v = .int n ∧ n < wordLimit ∧ w = Bytes.ofNat wordBytes n := by
  rw [toWord, map_eq_ok]
  simp only [requireWord_eq_ok_iff]
  constructor
  · rintro ⟨n, ⟨hv, hn⟩, rfl⟩
    exact ⟨n, hv, hn, rfl⟩
  · rintro ⟨n, hv, hn, rfl⟩
    exact ⟨n, ⟨hv, hn⟩, rfl⟩

/-- Bytes that are not too many spell a number. -/
theorem ofWord_ok {raw : Value} {b : Bytes} (hb : raw.toBytes? = some b) (hlen : b.length ≤ wordBytes) :
    ofWord raw = .ok b.toNat := by
  simp [ofWord, hb, Nat.not_lt.mpr hlen]

/-- Bytes no longer than a word are below the limit. -/
theorem toNat_lt_wordLimit {b : Bytes} (h : b.length ≤ wordBytes) : b.toNat < wordLimit :=
  calc b.toNat < 256 ^ b.length := Bytes.toNat_lt b
    _ ≤ 256 ^ wordBytes := Nat.pow_le_pow_right (by norm_num) h
    _ = wordLimit := by norm_num [wordBytes, wordLimit]

/-- Words and their bytes correspond one to one and in order. A value has bytes exactly if it is a number from zero up to the
limit; these are thirty-two and spell the number. Any thirty-two bytes or fewer, of either kind of byte string, spell a word, and
the bytes of that word are the given ones behind zeros; more bytes than that are refused as no word. Of two words the smaller one
has the bytes that come first. -/
theorem words_told_by_bytes :
    (∀ x : Value, (isWord x = true ↔ ∃ n : Nat, x = .int n ∧ n < 2 ^ 256) ∧
      ((∃ w, toWord x = .ok w) ↔ isWord x = true) ∧
      ∀ w, toWord x = .ok w → w.length = 32 ∧ ∃ n, ofWord (.bytes w) = .ok n ∧ .int n = x) ∧
    (∀ (raw : Value) (b : Bytes), raw.toBytes? = some b → b.length ≤ 32 →
      ∃ n : Nat, ofWord raw = .ok n ∧ toWord (.int n) = .ok (List.replicate (32 - b.length) 0 ++ b)) ∧
    (∀ x y : Int, 0 ≤ x → x < 2 ^ 256 → 0 ≤ y → y < 2 ^ 256 →
      ∃ a b, toWord (.int x) = .ok a ∧ toWord (.int y) = .ok b ∧ (x < y ↔ a < b)) ∧
    (∀ (raw : Value) (b : Bytes), raw.toBytes? = some b → 32 < b.length → ∃ f, ofWord raw = .error (.domain f)) := by
  have hfits : ∀ {n : Nat}, n < wordLimit → Bytes.toNat (Bytes.ofNat wordBytes n) = n :=
    fun hn => Bytes.toNat_ofNat wordBytes _ hn
  refine ⟨fun x => ⟨isWord_iff, ?_, fun w hw => ?_⟩, fun raw b hb hlen => ?_, fun x y hx hx' hy hy' => ?_,
    fun raw b hb hlen => ?_⟩
  · simp only [isWord_iff, toWord_eq_ok_iff]
    constructor
    · rintro ⟨w, n, hx, hn, -⟩
      exact ⟨n, hx, hn⟩
    · rintro ⟨n, hx, hn⟩
      exact ⟨_, n, hx, hn, rfl⟩
  · obtain ⟨n, rfl, hn, rfl⟩ := toWord_eq_ok_iff.mp hw
    have hread : ofWord (.bytes (Bytes.ofNat wordBytes n)) = .ok (Bytes.ofNat wordBytes n).toNat :=
      ofWord_ok rfl (Bytes.length_ofNat wordBytes n).le
    exact ⟨Bytes.length_ofNat wordBytes n, n, by rw [hread, hfits hn], rfl⟩
  · refine ⟨b.toNat, ofWord_ok hb hlen, toWord_eq_ok_iff.mpr ⟨b.toNat, rfl, toNat_lt_wordLimit hlen, ?_⟩⟩
    exact (Bytes.ofNat_toNat_eq_padded hlen).symm
  · obtain ⟨m, rfl⟩ := Int.eq_ofNat_of_zero_le hx
    obtain ⟨n, rfl⟩ := Int.eq_ofNat_of_zero_le hy
    have hm : m < wordLimit := by exact_mod_cast hx'
    have hn : n < wordLimit := by exact_mod_cast hy'
    refine ⟨_, _, toWord_eq_ok_iff.mpr ⟨m, rfl, hm, rfl⟩, toWord_eq_ok_iff.mpr ⟨n, rfl, hn, rfl⟩, ?_⟩
    rw [Bytes.lt_iff_toNat_lt (by simp), hfits hm, hfits hn, Int.ofNat_lt]
  · exact ⟨.wordTooLong b.length, by simp [ofWord, hb, wordBytes, hlen]⟩

/-- The law at the largest word, at the empty byte string, at two neighbours that differ in all but the first byte, and at a
buffer with one byte too many. -/
theorem words_told_by_bytes_at_ends :
    (∃ w, toWord (.int (2 ^ 256 - 1)) = .ok w ∧ w.length = 32 ∧ ∃ n, ofWord (.bytes w) = .ok n ∧ .int n = Value.int (2 ^ 256 - 1)) ∧
    (∃ n : Nat, ofWord (.bytes []) = .ok n ∧ toWord (.int n) = .ok (List.replicate 32 0)) ∧
    (∃ a b, toWord (.int (2 ^ 248 - 1)) = .ok a ∧ toWord (.int (2 ^ 248)) = .ok b ∧ a < b) ∧
    ∃ f, ofWord (.buffer (List.replicate 33 0)) = .error (.domain f) := by
  obtain ⟨hvalue, hraw, horder, hlong⟩ := words_told_by_bytes
  refine ⟨?_, ?_, ?_, hlong _ _ rfl (by decide)⟩
  · obtain ⟨hword, hok, hback⟩ := hvalue (.int (2 ^ 256 - 1))
    obtain ⟨w, hw⟩ := hok.mpr (hword.mpr ⟨2 ^ 256 - 1, by norm_num, by norm_num⟩)
    exact ⟨w, hw, hback w hw⟩
  · simpa using hraw (.bytes []) [] rfl (by decide)
  · obtain ⟨a, b, ha, hb, hlt⟩ := horder (2 ^ 248 - 1) (2 ^ 248) (by norm_num) (by norm_num) (by norm_num) (by norm_num)
    exact ⟨a, b, ha, hb, hlt.mp (by norm_num)⟩

end WordSlot
