import Mathlib.Tactic
import WordSlot.Proofs.Outcome
import WordSlot.Text.Utf8

/-!
# Bytes spell at most one text

Reading takes exactly the bytes of characters: a first byte and those it asks for are the bytes of one character, for every
character, and for no others. So bytes are read as a text exactly if they are the bytes of that text.
-/

namespace WordSlot

namespace Utf8

/-! ## One character -/

section

variable {more low high code good : Nat} {rest : Bytes} {result : Nat × Bytes}

/-- Nothing more follows a complete code point. -/
theorem follow_zero : follow 0 low high code rest good = .ok result ↔ result = (code, rest) := by
  rw [follow, Except.ok.injEq, eq_comm]

/-- A byte that follows lies in its range and adds six bits. -/
theorem follow_succ : follow (more + 1) low high code rest good = .ok result ↔
    ∃ x rest', rest = x :: rest' ∧ (low ≤ x.toNat ∧ x.toNat ≤ high) ∧
      follow more 0x80 0xbf (code * 64 + (x.toNat - 0x80)) rest' (good + 1) = .ok result := by
  cases rest with
  | nil => simp [follow]
  | cons x rest =>
    simp only [follow, Bool.and_eq_true, decide_eq_true_eq, List.cons.injEq]
    constructor
    · intro h
      split at h
      · rename_i hx
        exact ⟨x, rest, ⟨rfl, rfl⟩, hx, h⟩
      · cases h
    · rintro ⟨_, _, ⟨rfl, rfl⟩, hx, h⟩
      rw [if_pos hx]
      exact h

end

/-- A first byte starts a character of one, two, three or four bytes. -/
theorem lead?_eq_some {b : Nat} {plan : Lead} : lead? b = some plan ↔
    b < 0x80 ∧ plan = ⟨b, 0, 0, 0⟩ ∨
    (0xc2 ≤ b ∧ b < 0xe0) ∧ plan = ⟨b - 0xc0, 1, 0x80, 0xbf⟩ ∨
    (0xe0 ≤ b ∧ b < 0xf0) ∧ plan = ⟨b - 0xe0, 2, if b = 0xe0 then 0xa0 else 0x80, if b = 0xed then 0x9f else 0xbf⟩ ∨
    (0xf0 ≤ b ∧ b < 0xf5) ∧ plan = ⟨b - 0xf0, 3, if b = 0xf0 then 0x90 else 0x80, if b = 0xf4 then 0x8f else 0xbf⟩ := by
  unfold lead?
  constructor
  · intro h
    split at h
    · exact .inl ⟨‹_›, (Option.some.inj h).symm⟩
    · split at h
      · cases h
      · split at h
        · exact .inr (.inl ⟨by omega, (Option.some.inj h).symm⟩)
        · split at h
          · exact .inr (.inr (.inl ⟨by omega, (Option.some.inj h).symm⟩))
          · split at h
            · exact .inr (.inr (.inr ⟨by omega, (Option.some.inj h).symm⟩))
            · cases h
  · rintro (⟨hb, rfl⟩ | ⟨hb, rfl⟩ | ⟨hb, rfl⟩ | ⟨hb, rfl⟩)
    · rw [if_pos hb]
    · rw [if_neg (by omega), if_neg (by omega), if_pos hb.2]
    · rw [if_neg (by omega), if_neg (by omega), if_neg (by omega), if_pos hb.2]
    · rw [if_neg (by omega), if_neg (by omega), if_neg (by omega), if_neg (by omega), if_pos hb.2]

/-- The code points that are characters. -/
def IsScalar (code : Nat) : Prop := code < 0xd800 ∨ 0xdfff < code ∧ code < 0x110000

/-- A character is a scalar value. -/
theorem isScalar_toNat (c : Char) : IsScalar c.toNat := c.valid

/-- A scalar value is a character. -/
theorem toNat_ofNat {code : Nat} (h : IsScalar code) : (Char.ofNat code).toNat = code := by
  have hvalid : code.isValidChar := h
  rw [Char.ofNat, dif_pos hvalid]
  rfl

/-- What the bytes of a character are, by the size of its code point. -/
theorem encodeChar_eq {code : Nat} (h : IsScalar code) : String.utf8EncodeChar (Char.ofNat code) =
    if code ≤ 0x7f then [UInt8.ofNat code]
    else if code ≤ 0x7ff then [UInt8.ofNat (code / 64 % 32 + 192), UInt8.ofNat (code % 64 + 128)]
    else if code ≤ 0xffff then
      [UInt8.ofNat (code / 4096 % 16 + 224), UInt8.ofNat (code / 64 % 64 + 128), UInt8.ofNat (code % 64 + 128)]
    else [UInt8.ofNat (code / 262144 % 8 + 240), UInt8.ofNat (code / 4096 % 64 + 128), UInt8.ofNat (code / 64 % 64 + 128),
      UInt8.ofNat (code % 64 + 128)] := by
  have hcode : (Char.ofNat code).val.toNat = code := toNat_ofNat h
  rw [String.utf8EncodeChar, hcode]

/-- A small number is a byte. -/
theorem toNat_byte {n : Nat} (h : n < 256) : (UInt8.ofNat n).toNat = n := by
  rw [UInt8.toNat_ofNat', Nat.mod_eq_of_lt h]

/-- A byte is its number. -/
theorem eq_byte {b : UInt8} {n : Nat} (h : b.toNat = n) : b = UInt8.ofNat n := by
  rw [← h, UInt8.ofNat_toNat]

section

variable {b : UInt8} {rest rest' : Bytes} {code : Nat}

/-- What a first byte and those it asks for spell is a character with these bytes. -/
theorem eq_encodeChar_of_follow {plan : Lead} (hlead : lead? b.toNat = some plan)
    (hfollow : follow plan.more plan.low plan.high plan.payload rest 1 = .ok (code, rest')) :
    IsScalar code ∧ b :: rest = String.utf8EncodeChar (Char.ofNat code) ++ rest' := by
  rcases lead?_eq_some.mp hlead with ⟨hb, rfl⟩ | ⟨hb, rfl⟩ | ⟨hb, rfl⟩ | ⟨hb, rfl⟩ <;> dsimp only at hfollow
  · obtain ⟨rfl, rfl⟩ := Prod.mk.inj (follow_zero.mp hfollow)
    have hscalar : IsScalar b.toNat := .inl (by omega)
    rw [encodeChar_eq hscalar, if_pos (by omega), UInt8.ofNat_toNat]
    exact ⟨hscalar, rfl⟩
  · obtain ⟨x, rest, rfl, hx, h⟩ := follow_succ.mp hfollow
    obtain ⟨hcode, rfl⟩ := Prod.mk.inj (follow_zero.mp h)
    have hscalar : IsScalar code := .inl (by omega)
    rw [encodeChar_eq hscalar, if_neg (by omega), if_pos (by omega), eq_byte (by omega : b.toNat = code / 64 % 32 + 192),
      eq_byte (by omega : x.toNat = code % 64 + 128)]
    exact ⟨hscalar, rfl⟩
  · obtain ⟨x, rest, rfl, hx, h⟩ := follow_succ.mp hfollow
    obtain ⟨y, rest, rfl, hy, h⟩ := follow_succ.mp h
    obtain ⟨hcode, rfl⟩ := Prod.mk.inj (follow_zero.mp h)
    have hrange : 0x80 ≤ x.toNat ∧ x.toNat ≤ 0xbf ∧ (b.toNat = 0xe0 → 0xa0 ≤ x.toNat) ∧ (b.toNat = 0xed → x.toNat ≤ 0x9f) := by
      split at hx <;> split at hx <;> omega
    have hscalar : IsScalar code := by
      unfold IsScalar
      omega
    rw [encodeChar_eq hscalar, if_neg (by omega), if_neg (by omega), if_pos (by omega),
      eq_byte (by omega : b.toNat = code / 4096 % 16 + 224), eq_byte (by omega : x.toNat = code / 64 % 64 + 128),
      eq_byte (by omega : y.toNat = code % 64 + 128)]
    exact ⟨hscalar, rfl⟩
  · obtain ⟨x, rest, rfl, hx, h⟩ := follow_succ.mp hfollow
    obtain ⟨y, rest, rfl, hy, h⟩ := follow_succ.mp h
    obtain ⟨z, rest, rfl, hz, h⟩ := follow_succ.mp h
    obtain ⟨hcode, rfl⟩ := Prod.mk.inj (follow_zero.mp h)
    have hrange : 0x80 ≤ x.toNat ∧ x.toNat ≤ 0xbf ∧ (b.toNat = 0xf0 → 0x90 ≤ x.toNat) ∧ (b.toNat = 0xf4 → x.toNat ≤ 0x8f) := by
      split at hx <;> split at hx <;> omega
    have hscalar : IsScalar code := .inr (by omega)
    rw [encodeChar_eq hscalar, if_neg (by omega), if_neg (by omega), if_neg (by omega),
      eq_byte (by omega : b.toNat = code / 262144 % 8 + 240), eq_byte (by omega : x.toNat = code / 4096 % 64 + 128),
      eq_byte (by omega : y.toNat = code / 64 % 64 + 128), eq_byte (by omega : z.toNat = code % 64 + 128)]
    exact ⟨hscalar, rfl⟩

/-- The bytes of a character are a first byte and those it asks for. -/
theorem follow_of_eq_encodeChar (hscalar : IsScalar code)
    (hbytes : b :: rest = String.utf8EncodeChar (Char.ofNat code) ++ rest') :
    ∃ plan, lead? b.toNat = some plan ∧ follow plan.more plan.low plan.high plan.payload rest 1 = .ok (code, rest') := by
  rw [encodeChar_eq hscalar] at hbytes
  unfold IsScalar at hscalar
  have hlast := toNat_byte (by omega : code % 64 + 128 < 256)
  have hthird := toNat_byte (by omega : code / 64 % 64 + 128 < 256)
  split at hbytes
  · obtain ⟨rfl, rfl⟩ := List.cons.inj hbytes
    have hb := toNat_byte (by omega : code < 256)
    refine ⟨⟨code, 0, 0, 0⟩, lead?_eq_some.mpr (.inl ⟨?_, ?_⟩), follow_zero.mpr rfl⟩
    · omega
    · rw [hb]
  · split at hbytes
    · obtain ⟨rfl, rfl⟩ := List.cons.inj hbytes
      have hb := toNat_byte (by omega : code / 64 % 32 + 192 < 256)
      refine ⟨_, lead?_eq_some.mpr (.inr (.inl ⟨?_, rfl⟩)),
        follow_succ.mpr ⟨_, _, rfl, ?_, follow_zero.mpr (Prod.ext ?_ rfl)⟩⟩
      · omega
      · dsimp only
        omega
      · dsimp only
        omega
    · split at hbytes
      · obtain ⟨rfl, rfl⟩ := List.cons.inj hbytes
        have hb := toNat_byte (by omega : code / 4096 % 16 + 224 < 256)
        refine ⟨_, lead?_eq_some.mpr (.inr (.inr (.inl ⟨?_, rfl⟩))), follow_succ.mpr ⟨_, _, rfl, ?_,
          follow_succ.mpr ⟨_, _, rfl, ?_, follow_zero.mpr (Prod.ext ?_ rfl)⟩⟩⟩
        · omega
        · constructor <;> dsimp only <;> split <;> omega
        · omega
        · dsimp only
          omega
      · obtain ⟨rfl, rfl⟩ := List.cons.inj hbytes
        have hb := toNat_byte (by omega : code / 262144 % 8 + 240 < 256)
        have hsecond := toNat_byte (by omega : code / 4096 % 64 + 128 < 256)
        refine ⟨_, lead?_eq_some.mpr (.inr (.inr (.inr ⟨?_, rfl⟩))), follow_succ.mpr ⟨_, _, rfl, ?_,
          follow_succ.mpr ⟨_, _, rfl, ?_, follow_succ.mpr ⟨_, _, rfl, ?_, follow_zero.mpr (Prod.ext ?_ rfl)⟩⟩⟩⟩
        · omega
        · constructor <;> dsimp only <;> split <;> omega
        · omega
        · omega
        · dsimp only
          omega

end

/-! ## Text -/

/-- Characters are encoded one by one. -/
theorem encode_cons (c : Char) (cs : List Char) : encode (c :: cs) = String.utf8EncodeChar c ++ encode cs := rfl

/-- The bytes of a text are read as it. -/
theorem decode_encode (cs : List Char) : decode (encode cs) = .ok cs := by
  have hfrom : ∀ fuel position, (encode cs).length ≤ fuel → decodeFrom fuel position (encode cs) = .ok cs := by
    induction cs with
    | nil =>
      intro fuel position _
      cases fuel <;> rfl
    | cons c cs ih =>
      intro fuel position hfuel
      rw [encode_cons] at hfuel ⊢
      cases hbytes : String.utf8EncodeChar c ++ encode cs with
      | nil => exact absurd (List.append_eq_nil_iff.mp hbytes).1 String.utf8EncodeChar_ne_nil
      | cons b rest =>
        have hsize : 0 < (String.utf8EncodeChar c).length := List.length_pos_iff.mpr String.utf8EncodeChar_ne_nil
        rw [List.length_append] at hfuel
        obtain ⟨fuel, rfl⟩ : ∃ n, fuel = n + 1 := Nat.exists_eq_add_one_of_ne_zero (by omega)
        have hchar : b :: rest = String.utf8EncodeChar (Char.ofNat c.toNat) ++ encode cs := by
          rw [Char.ofNat_toNat, hbytes]
        obtain ⟨plan, hlead, hfollow⟩ := follow_of_eq_encodeChar (isScalar_toNat c) hchar
        have hrest := ih fuel (position + 1 + plan.more) (by omega)
        simp only [decodeFrom, hlead, hfollow, hrest, Char.ofNat_toNat]
  exact hfrom _ 0 (Nat.le_refl _)

/-- Bytes that are read as a text are its bytes. -/
theorem eq_encode_of_decode {b : Bytes} {cs : List Char} (h : decode b = .ok cs) : b = encode cs := by
  have hfrom : ∀ fuel position (b : Bytes) (cs : List Char), b.length ≤ fuel → decodeFrom fuel position b = .ok cs →
      b = encode cs := by
    intro fuel
    induction fuel with
    | zero =>
      intro position b cs hfuel hdecode
      cases hdecode
      exact List.length_eq_zero_iff.mp (by omega)
    | succ fuel ih =>
      intro position b cs hfuel hdecode
      cases b with
      | nil =>
        cases hdecode
        rfl
      | cons b rest =>
        rw [decodeFrom] at hdecode
        split at hdecode
        · cases hdecode
        · rename_i plan hlead
          split at hdecode
          · cases hdecode
          · rename_i code rest' hfollow
            obtain ⟨-, hbytes⟩ := eq_encodeChar_of_follow hlead hfollow
            split at hdecode
            · rename_i cs' hrest
              cases hdecode
              have hlength := congrArg List.length hbytes
              have hsize : 0 < (String.utf8EncodeChar (Char.ofNat code)).length :=
                List.length_pos_iff.mpr String.utf8EncodeChar_ne_nil
              rw [List.length_append] at hlength
              rw [encode_cons, ← ih _ _ _ (by omega) hrest]
              exact hbytes
            · cases hdecode
  exact hfrom _ 0 b cs (Nat.le_refl _) h

/-- Bytes are read as a text exactly if they are its bytes. -/
theorem decode_eq_ok_iff {b : Bytes} {cs : List Char} : decode b = .ok cs ↔ b = encode cs := by
  refine ⟨eq_encode_of_decode, ?_⟩
  rintro rfl
  exact decode_encode cs

end Utf8

/-- A text has characters exactly if it is theirs. -/
theorem Text.chars?_eq_some_iff {t : Text} {cs : List Char} : t.chars? = some cs ↔ t = Text.ofChars cs := by
  have hscalar : ∀ code, Text.isScalar code = true ↔ Utf8.IsScalar code := by
    intro code
    simp [Text.isScalar, Utf8.IsScalar]
  unfold Text.chars?
  constructor
  · intro h
    split at h
    · rename_i hall
      cases h
      have hcodes : t.codes = (t.codes.map Char.ofNat).map Char.toNat := by
        rw [List.map_map]
        refine (List.map_id _).symm.trans (List.map_congr_left fun code hcode => ?_)
        exact (Utf8.toNat_ofNat ((hscalar code).mp (List.all_eq_true.mp hall code hcode))).symm
      exact congrArg Text.mk hcodes
    · cases h
  · rintro rfl
    have hall : (Text.ofChars cs).codes.all Text.isScalar = true := by
      rw [List.all_eq_true]
      intro code hcode
      obtain ⟨c, -, rfl⟩ := List.mem_map.mp hcode
      exact (hscalar _).mpr (Utf8.isScalar_toNat c)
    rw [if_pos hall, Text.ofChars, List.map_map]
    simp [Function.comp_def, Char.ofNat_toNat]

/-- A text has bytes exactly if it is characters, and then theirs. -/
theorem Utf8.encodeText?_eq_some_iff {t : Text} {b : Bytes} :
    encodeText? t = some b ↔ ∃ cs, t = Text.ofChars cs ∧ encode cs = b := by
  simp [encodeText?, Option.map_eq_some_iff, Text.chars?_eq_some_iff]

/-- The bytes of a text tell the text. -/
theorem Utf8.eq_of_encodeText? {s t : Text} {b : Bytes} (hs : encodeText? s = some b) (ht : encodeText? t = some b) : s = t := by
  obtain ⟨cs, rfl, hcs⟩ := encodeText?_eq_some_iff.mp hs
  obtain ⟨ds, rfl, hds⟩ := encodeText?_eq_some_iff.mp ht
  have hdecode : decode (encode cs) = .ok ds := by rw [hcs, ← hds, decode_encode]
  rw [decode_encode, Except.ok.injEq] at hdecode
  rw [hdecode]

end WordSlot
