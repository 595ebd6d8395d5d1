import Mathlib.Tactic
import WordSlot.Json.Reader
import WordSlot.Json.Writer

/-!
# JSON strings are read back

A string is written by the UTF-16 units of its code points, each as a character or as an escape, and read unit by unit. So it is
read as what its units spell: a character beyond the first 65536 comes back from its two halves, and halves that stood side by
side on their own are joined as well.
-/

namespace WordSlot

namespace Json

/-! ## Units -/

/-- The UTF-16 units that a code point is written by. -/
def unitsOf (code : Nat) : List Nat :=
  if code < 0x10000 then [code] else [(0xd800 + (code - 0x10000) / 0x400) % 0x10000, 0xdc00 + (code - 0x10000) % 0x400]

/-- Units in which the halves of surrogate pairs that stand side by side are joined. -/
def joinUnits : List Nat → List Nat
  | high :: low :: rest =>
    if isHighHalf high && isLowHalf low then joinHalves high low :: joinUnits rest else high :: joinUnits (low :: rest)
  | units => units

/-- Code points as they are read back from a string that they were written in. -/
def readBackCodes (codes : List Nat) : List Nat := joinUnits (codes.flatMap unitsOf)

/-- The ways in which one unit can be written in a string. -/
inductive UnitText : List Char → Nat → Prop
  | char {c : Char} (quote : c ≠ '"') (slash : c ≠ '\\') (control : 0x1f < c.toNat) : UnitText [c] c.toNat
  | letter {c : Char} {unit : Nat} (code : escapeCode? c = some unit) : UnitText ['\\', c] unit
  | hex {a b c d : Char} {unit : Nat} (digits : hexFour? a b c d = some unit) : UnitText ['\\', 'u', a, b, c, d] unit

/-! ## Writing -/

/-- The letters that stand for a code point, which is a small one. -/
theorem letter_of_escapeCode? {c : Char} {unit : Nat} (h : escapeCode? c = some unit) :
    c ∈ ['"', '\\', '/', 'b', 'f', 'n', 'r', 't'] ∧ unit < 128 := by
  unfold escapeCode? at h
  split at h
  case h_9 => nomatch h
  all_goals
    obtain rfl := Option.some.inj h
    decide

/-- The four digits of an escape are read as the unit. -/
theorem hexFour?_unitEscape (unit : Nat) :
    hexFour? (Nat.digitChar (unit / 4096 % 16)) (Nat.digitChar (unit / 256 % 16)) (Nat.digitChar (unit / 16 % 16))
      (Nat.digitChar (unit % 16)) = some (unit % 0x10000) := by
  have hdigit : ∀ d < 16, hexValue? (Nat.digitChar d) = some d := by decide
  have hmod : ∀ n : Nat, n % 16 < 16 := fun n => Nat.mod_lt n (by decide)
  rw [hexFour?, hdigit _ (hmod _), hdigit _ (hmod _), hdigit _ (hmod _), hdigit _ (hmod _)]
  simp only [Option.some.injEq]
  omega

/-- An escape is the text of a unit. -/
theorem unitText_unitEscape (unit : Nat) : UnitText (unitEscape unit) (unit % 0x10000) := .hex (hexFour?_unitEscape unit)

/-- A code point of ASCII is a character. -/
theorem toNat_ofNat_of_printable {code : Nat} (h : code ≤ 0x7e) : (Char.ofNat code).toNat = code := by
  rw [Char.ofNat, dif_pos (.inl (by omega))]
  rfl

/-- The ways in which a code point is written: by a letter, as itself, by the digits of its unit or by those of its two. -/
theorem escapeChar_cases (code : Nat) :
    (∃ c, escapeChar code = ['\\', c] ∧ escapeCode? c = some code) ∨
    (0x20 ≤ code ∧ code ≤ 0x7e ∧ code ≠ 0x22 ∧ code ≠ 0x5c ∧ escapeChar code = [Char.ofNat code]) ∨
    (code < 0x10000 ∧ escapeChar code = unitEscape code) ∨
    (0x10000 ≤ code ∧ escapeChar code =
      unitEscape (0xd800 + (code - 0x10000) / 0x400) ++ unitEscape (0xdc00 + (code - 0x10000) % 0x400)) := by
  by_cases hletter : code ∈ [0x22, 0x5c, 0x0a, 0x0d, 0x09, 0x0c, 0x08]
  · left
    simp only [List.mem_cons, List.not_mem_nil, or_false] at hletter
    rcases hletter with rfl | rfl | rfl | rfl | rfl | rfl | rfl <;> exact ⟨_, rfl, rfl⟩
  · right
    simp only [List.mem_cons, List.not_mem_nil, or_false, not_or] at hletter
    obtain ⟨hquote, hslash, hn, hr, ht, hf, hb⟩ := hletter
    have hescape : escapeChar code = if 0x20 ≤ code ∧ code ≤ 0x7e then [Char.ofNat code]
        else if code < 0x10000 then unitEscape code
        else unitEscape (0xd800 + (code - 0x10000) / 0x400) ++ unitEscape (0xdc00 + (code - 0x10000) % 0x400) := by
      simp only [escapeChar, beq_iff_eq, Bool.and_eq_true, decide_eq_true_eq, hquote, hslash, hn, hr, ht, hf, hb, if_false]
    rw [hescape]
    by_cases hprintable : 0x20 ≤ code ∧ code ≤ 0x7e
    · rw [if_pos hprintable]
      exact .inl ⟨hprintable.1, hprintable.2, hquote, hslash, rfl⟩
    · rw [if_neg hprintable]
      by_cases hsmall : code < 0x10000
      · rw [if_pos hsmall]
        exact .inr (.inl ⟨hsmall, rfl⟩)
      · rw [if_neg hsmall]
        exact .inr (.inr ⟨Nat.not_lt.mp hsmall, rfl⟩)

/-- A code point is written by its units, each in one of the ways there are. -/
theorem unitText_escapeChar (code : Nat) :
    ∃ texts, escapeChar code = texts.flatten ∧ List.Forall₂ UnitText texts (unitsOf code) := by
  have hone : code < 0x10000 → UnitText (escapeChar code) code →
      ∃ texts, escapeChar code = texts.flatten ∧ List.Forall₂ UnitText texts (unitsOf code) := by
    intro hsmall htext
    rw [unitsOf, if_pos hsmall]
    exact ⟨[escapeChar code], by simp, .cons htext .nil⟩
  rcases escapeChar_cases code with ⟨c, hescape, hc⟩ | ⟨hlow, hhigh, hquote, hslash, hescape⟩ | ⟨hsmall, hescape⟩ |
    ⟨hlarge, hescape⟩
  · refine hone (by have := (letter_of_escapeCode? hc).2; omega) ?_
    rw [hescape]
    exact .letter hc
  · have hcode := toNat_ofNat_of_printable hhigh
    have hne : ∀ c : Char, c.toNat ≠ code → Char.ofNat code ≠ c := by
      intro c hc heq
      rw [heq] at hcode
      exact hc hcode
    have hchar : UnitText [Char.ofNat code] (Char.ofNat code).toNat :=
      .char (hne _ (Ne.symm hquote)) (hne _ (Ne.symm hslash)) (by omega)
    rw [hcode, ← hescape] at hchar
    exact hone (by omega) hchar
  · have hunit := unitText_unitEscape code
    rw [Nat.mod_eq_of_lt hsmall, ← hescape] at hunit
    exact hone hsmall hunit
  · have hlow := unitText_unitEscape (0xdc00 + (code - 0x10000) % 0x400)
    rw [Nat.mod_eq_of_lt (by omega : 0xdc00 + (code - 0x10000) % 0x400 < 0x10000)] at hlow
    rw [unitsOf, if_neg (by omega), hescape]
    exact ⟨[_, _], by simp, .cons (unitText_unitEscape _) (.cons hlow .nil)⟩

/-- Escaped text is made of the texts of its units. -/
theorem unitText_flatMap (codes : List Nat) :
    ∃ texts, codes.flatMap escapeChar = texts.flatten ∧ List.Forall₂ UnitText texts (codes.flatMap unitsOf) := by
  induction codes with
  | nil => exact ⟨[], rfl, .nil⟩
  | cons code codes ih =>
    obtain ⟨texts, htexts, hunits⟩ := unitText_escapeChar code
    obtain ⟨more, hmore, hmunits⟩ := ih
    refine ⟨texts ++ more, ?_, ?_⟩
    · rw [List.flatMap_cons, htexts, hmore, List.flatten_append]
    · rw [List.flatMap_cons]
      exact List.rel_append hunits hmunits

/-! ## Reading -/

/-- What stands behind an escaped first half if it stays alone: no escape of a second half. -/
def NoLowHalf (more : List Char) : Prop :=
  ∀ f g h i rest, more = '\\' :: 'u' :: f :: g :: h :: i :: rest → ∃ low, hexFour? f g h i = some low ∧ isLowHalf low = false

/-- A unit that is not the first half of a pair is read as it is. -/
theorem readUnit_text {text : List Char} {unit : Nat} (h : UnitText text unit) (start : Nat) {more : List Char}
    (hmore : more ≠ []) (halone : isHighHalf unit = true → NoLowHalf more) :
    readUnit start (text ++ more) = .ok (some unit, more) := by
  cases h with
  | @char c quote slash control =>
    rw [List.singleton_append]
    unfold readUnit
    split
    · rename_i heq
      nomatch heq
    · rename_i heq
      exact absurd (List.cons.inj heq).1 quote
    · rename_i heq
      exact absurd (List.cons.inj heq).1 slash
    · rename_i heq
      exact absurd (List.cons.inj heq).1 slash
    · rename_i heq
      exact absurd (List.cons.inj heq).1 slash
    · rename_i heq
      exact absurd (List.cons.inj heq).1 slash
    · rename_i heq
      obtain ⟨rfl, rfl⟩ := List.cons.inj heq
      rw [if_neg (Nat.not_le.mpr control)]
  | @letter c unit code =>
    obtain ⟨hletter, -⟩ := letter_of_escapeCode? code
    simp only [List.mem_cons, List.not_mem_nil, or_false] at hletter
    rcases hletter with rfl | rfl | rfl | rfl | rfl | rfl | rfl | rfl <;> cases code <;> rfl
  | @hex a b c d unit digits =>
    obtain ⟨e, rest, rfl⟩ := List.exists_cons_of_ne_nil hmore
    simp only [List.cons_append, List.nil_append, readUnit, digits]
    clear hmore
    split
    · rename_i hhigh
      obtain ⟨low, hlow, half⟩ := halone hhigh _ _ _ _ _ rfl
      rw [hlow]
      simp [half]
    · rfl

/-- What does not start with a backslash is no low half. -/
theorem noLowHalf_of_ne {c : Char} (h : c ≠ '\\') (rest : List Char) : NoLowHalf (c :: rest) := by
  intro f g h' i rest' heq
  exact absurd (List.cons.inj heq).1 h

/-- Before the text of a unit that is no second half, a first half stays alone. -/
theorem UnitText.noLowHalf {text : List Char} {unit : Nat} (h : UnitText text unit) (hlow : isLowHalf unit = false)
    (more : List Char) : NoLowHalf (text ++ more) := by
  cases h with
  | char quote slash control => exact noLowHalf_of_ne slash more
  | letter code =>
    intro f g h' i rest heq
    obtain ⟨rfl, -⟩ := List.cons.inj (List.cons.inj heq).2
    nomatch code
  | hex digits =>
    intro f g h' i rest heq
    simp only [List.cons_append, List.nil_append, List.cons.injEq, true_and] at heq
    obtain ⟨rfl, rfl, rfl, rfl, -⟩ := heq
    exact ⟨_, digits, hlow⟩

/-- Only digits write a half of a surrogate pair. -/
theorem UnitText.half {text : List Char} {unit : Nat} (h : UnitText text unit) (hhalf : 0xd800 ≤ unit ∧ unit < 0xe000) :
    ∃ a b c d, text = ['\\', 'u', a, b, c, d] ∧ hexFour? a b c d = some unit := by
  cases h with
  | @char c quote slash control =>
    have hvalid : c.toNat.isValidChar := c.valid
    unfold Nat.isValidChar at hvalid
    omega
  | letter code =>
    have hsmall := (letter_of_escapeCode? code).2
    omega
  | hex digits => exact ⟨_, _, _, _, rfl, digits⟩

/-- The two halves of a pair are read as one code point. -/
theorem readUnit_pair {first second : List Char} {high low : Nat} (hfirst : UnitText first high) (hsecond : UnitText second low)
    (hhigh : isHighHalf high = true) (hlow : isLowHalf low = true) (start : Nat) {more : List Char} (hmore : more ≠ []) :
    readUnit start (first ++ (second ++ more)) = .ok (some (joinHalves high low), more) := by
  have hranges : (0xd800 ≤ high ∧ high < 0xe000) ∧ 0xd800 ≤ low ∧ low < 0xe000 := by
    simp only [isHighHalf, isLowHalf, Bool.and_eq_true, decide_eq_true_eq] at hhigh hlow
    omega
  obtain ⟨a, b, c, d, rfl, hdigits⟩ := hfirst.half hranges.1
  obtain ⟨f, g, h, i, rfl, hdigits'⟩ := hsecond.half hranges.2
  obtain ⟨e, rest, rfl⟩ := List.exists_cons_of_ne_nil hmore
  simp only [List.cons_append, List.nil_append, readUnit, hdigits, hdigits', hhigh, hlow, if_true]

/-- Units that are written one after the other are read up to the closing quote, pairs of halves as one. -/
theorem readUnits_texts {texts : List (List Char)} {units : List Nat} (h : List.Forall₂ UnitText texts units)
    (start : Nat) {fuel : Nat} (hfuel : units.length < fuel) (rest : List Char) :
    readUnits start fuel (texts.flatten ++ '"' :: rest) = .ok (joinUnits units, rest) := by
  fun_induction joinUnits units generalizing texts fuel with
  | case1 high low units hpair ih =>
    obtain ⟨fuel, rfl⟩ := Nat.exists_eq_add_one_of_ne_zero (Nat.ne_of_gt (Nat.zero_lt_of_lt hfuel))
    obtain ⟨first, texts, hfirst, htexts, rfl⟩ := List.forall₂_cons_right_iff.mp h
    obtain ⟨second, texts, hsecond, hrest, rfl⟩ := List.forall₂_cons_right_iff.mp htexts
    rw [Bool.and_eq_true] at hpair
    have hlength : units.length < fuel := by
      simp only [List.length_cons] at hfuel
      omega
    have hmore := ih hrest hlength
    simp only [List.flatten_cons, List.append_assoc]
    rw [readUnits, readUnit_pair hfirst hsecond hpair.1 hpair.2 start (by simp)]
    simp only [hmore, Except.map]
  | case2 high low units hpair ih =>
    obtain ⟨fuel, rfl⟩ := Nat.exists_eq_add_one_of_ne_zero (Nat.ne_of_gt (Nat.zero_lt_of_lt hfuel))
    obtain ⟨first, texts, hfirst, htexts, rfl⟩ := List.forall₂_cons_right_iff.mp h
    have hlength : (low :: units).length < fuel := by simpa using hfuel
    have hmore := ih htexts hlength
    obtain ⟨second, texts, hsecond, -, rfl⟩ := List.forall₂_cons_right_iff.mp htexts
    simp only [List.flatten_cons, List.append_assoc] at hmore ⊢
    rw [readUnits, readUnit_text hfirst start (by simp) fun hhigh => hsecond.noLowHalf (by simpa [hhigh] using hpair) _]
    simp only [hmore, Except.map]
  | case3 units hnot =>
    obtain ⟨fuel, rfl⟩ := Nat.exists_eq_add_one_of_ne_zero (Nat.ne_of_gt (Nat.zero_lt_of_lt hfuel))
    match units, h with
    | [], .nil => rfl
    | [unit], .cons htext .nil =>
      have hquote : NoLowHalf ('"' :: rest) := noLowHalf_of_ne (by decide) rest
      obtain ⟨fuel, rfl⟩ := Nat.exists_eq_add_one_of_ne_zero (by simpa using Nat.ne_of_gt hfuel : fuel ≠ 0)
      rw [List.flatten_cons, List.flatten_nil, List.append_nil, readUnits, readUnit_text htext start (by simp) fun _ => hquote]
      rfl
    | high :: low :: units, _ => exact absurd rfl (hnot high low units)

/-- There are no more units than characters. -/
theorem length_le_of_texts {texts : List (List Char)} {units : List Nat} (h : List.Forall₂ UnitText texts units) :
    units.length ≤ texts.flatten.length := by
  induction h with
  | nil => exact Nat.le_refl 0
  | @cons text unit texts units htext _ ih =>
    have hpos : 0 < text.length := by cases htext <;> simp
    simp only [List.flatten_cons, List.length_append, List.length_cons]
    omega

/-- The inside of a string is read as what its units spell. -/
theorem readChars_codes (codes : List Nat) (rest : List Char) :
    readChars (codes.flatMap escapeChar ++ '"' :: rest) = .ok (readBackCodes codes, rest) := by
  obtain ⟨texts, htexts, hunits⟩ := unitText_flatMap codes
  have hlength := length_le_of_texts hunits
  rw [htexts]
  refine readUnits_texts hunits _ ?_ rest
  simp only [List.length_append, List.length_cons]
  omega

/-- A unit that is no high half stands for itself. -/
theorem joinUnits_cons {unit : Nat} (h : isHighHalf unit = false) (units : List Nat) :
    joinUnits (unit :: units) = unit :: joinUnits units := by
  cases units with
  | nil => rfl
  | cons low units => simp [joinUnits, h]

/-- A string without halves of surrogate pairs is read as it was written. -/
theorem readBackCodes_of_scalar {codes : List Nat} (h : ∀ code ∈ codes, Text.isScalar code = true) :
    readBackCodes codes = codes := by
  induction codes with
  | nil => rfl
  | cons code codes ih =>
    have hcode := h code List.mem_cons_self
    have hcodes := ih fun c hc => h c (List.mem_cons_of_mem _ hc)
    simp only [Text.isScalar, Bool.or_eq_true, Bool.and_eq_true, decide_eq_true_eq] at hcode
    rw [readBackCodes] at hcodes ⊢
    rw [List.flatMap_cons]
    by_cases hsmall : code < 0x10000
    · have hhigh : isHighHalf code = false := by
        simp only [isHighHalf, Bool.and_eq_false_iff, decide_eq_false_iff_not]
        omega
      rw [unitsOf, if_pos hsmall, List.singleton_append, joinUnits_cons hhigh, hcodes]
    · have hhalves : isHighHalf ((0xd800 + (code - 0x10000) / 0x400) % 0x10000) = true ∧
          isLowHalf (0xdc00 + (code - 0x10000) % 0x400) = true := by
        simp only [isHighHalf, isLowHalf, Bool.and_eq_true, decide_eq_true_eq]
        omega
      have hjoined : joinHalves ((0xd800 + (code - 0x10000) / 0x400) % 0x10000) (0xdc00 + (code - 0x10000) % 0x400) = code := by
        unfold joinHalves
        omega
      rw [unitsOf, if_neg hsmall, List.cons_append, List.singleton_append, joinUnits, hhalves.1, hhalves.2, hjoined, hcodes]
      rfl

/-! ## Characters -/

/-- A character from the blank to the tilde. -/
def Printable (c : Char) : Prop := 0x20 ≤ c.toNat ∧ c.toNat ≤ 0x7e

instance (c : Char) : Decidable (Printable c) := inferInstanceAs (Decidable (0x20 ≤ c.toNat ∧ c.toNat ≤ 0x7e))

/-- An escape is printable. -/
theorem printable_unitEscape (unit : Nat) : ∀ c ∈ unitEscape unit, Printable c := by
  have hdigit : ∀ d < 16, Printable (Nat.digitChar d) := by decide
  have hmod : ∀ n : Nat, n % 16 < 16 := fun n => Nat.mod_lt n (by decide)
  unfold unitEscape
  simp only [List.forall_mem_cons]
  exact ⟨by decide, by decide, hdigit _ (hmod _), hdigit _ (hmod _), hdigit _ (hmod _), hdigit _ (hmod _), nofun⟩

/-- A code point is written printably. -/
theorem printable_escapeChar (code : Nat) : ∀ c ∈ escapeChar code, Printable c := by
  rcases escapeChar_cases code with ⟨c, hescape, hc⟩ | ⟨hlow, hhigh, -, -, hescape⟩ | ⟨-, hescape⟩ | ⟨-, hescape⟩
  · have hletters : ∀ c ∈ ['"', '\\', '/', 'b', 'f', 'n', 'r', 't'], Printable c := by simp [Printable]
    rw [hescape]
    simp only [List.forall_mem_cons]
    exact ⟨by decide, hletters c (letter_of_escapeCode? hc).1, nofun⟩
  · rw [hescape, List.forall_mem_singleton, Printable, toNat_ofNat_of_printable hhigh]
    exact ⟨hlow, hhigh⟩
  · rw [hescape]
    exact printable_unitEscape code
  · rw [hescape]
    exact List.forall_mem_append.mpr ⟨printable_unitEscape _, printable_unitEscape _⟩

/-- A text is written printably. -/
theorem printable_writeCodes (codes : List Nat) : ∀ c ∈ writeCodes codes, Printable c := by
  intro c hc
  simp only [writeCodes, List.cons_append, List.mem_cons, List.mem_append, List.mem_flatMap, List.not_mem_nil, or_false] at hc
  rcases hc with rfl | ⟨code, -, hc⟩ | rfl
  · decide
  · exact printable_escapeChar code c hc
  · decide

end Json

end WordSlot
