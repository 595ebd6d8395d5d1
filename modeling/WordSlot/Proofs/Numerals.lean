import Mathlib.Data.Nat.Digits.Defs
import WordSlot.Proofs.Boundary
import WordSlot.Proofs.Texts

/-!
# Numerals

What the reader of a caller's numeral takes is a grammar, stated here apart from the reader: a mark and hex digits, or a sign and
at most 4300 decimal digits. Blanks and underscores are dropped first, and the blanks that the underscores kept apart from the ends
are dropped after that. On ASCII text the reader takes exactly this grammar, so a number that does not fit is refused and never
wrapped, and the hex and decimal texts of a number are read back.
-/

namespace WordSlot

open Outcome

namespace Text

/-- A text of ASCII characters. -/
def IsAscii (t : Text) : Prop := ∀ code ∈ t.codes, code < 128

/-- A text without the blanks at its ends and then without its underscores. -/
def bare (t : Text) : Text := ⟨t.strip.codes.filter (· != '_'.toNat)⟩

end Text

namespace Numeral

/-! ## The grammar -/

/-- A character stands for a digit: one of `0` to `9`, or one of `a` to `f` in either case. -/
def IsDigit (c : Char) (d : Nat) : Prop := c = Nat.digitChar d ∨ c = (Nat.digitChar d).toUpper

/-- Characters spell a number in a base: they are digits of it, one at least, the most significant first. -/
def Spells (base : Nat) (cs : List Char) (n : Nat) : Prop :=
  cs ≠ [] ∧ ∃ ds, List.Forall₂ IsDigit cs ds ∧ (∀ d ∈ ds, d < base) ∧ Nat.ofDigits base ds.reverse = n

/-- A sign, or none, in front of a magnitude makes a number. -/
inductive Signs : List Char → Nat → Int → Prop where
  | none (n : Nat) : Signs [] n n
  | plus (n : Nat) : Signs ['+'] n n
  | minus (n : Nat) : Signs ['-'] n (-n)

/-- Characters that start with the mark of a hex numeral. -/
def IsMarked (cs : List Char) : Prop := ∃ mark rest, (mark = 'x' ∨ mark = 'X') ∧ cs = '0' :: mark :: rest

/-- A hex numeral: the mark and hex digits, with blanks behind them. -/
def IsHex (cs : List Char) (n : Nat) : Prop :=
  ∃ mark ds back, cs = '0' :: mark :: (ds ++ back) ∧ (mark = 'x' ∨ mark = 'X') ∧ Spells 16 ds n ∧
    ∀ c ∈ back, isAsciiBlank c = true

/-- A decimal numeral: a sign or none and at most 4300 digits, with blanks around them. -/
def IsDecimal (cs : List Char) (z : Int) : Prop :=
  ∃ front sign ds back n, cs = front ++ (sign ++ ds) ++ back ∧ Signs sign n z ∧ Spells 10 ds n ∧
    ds.length ≤ maxDecimalDigits ∧ (∀ c ∈ front, isAsciiBlank c = true) ∧ ∀ c ∈ back, isAsciiBlank c = true

/-- A numeral for a number: a hex one, or a decimal one without the mark of hex. -/
def IsNumeral (cs : List Char) (z : Int) : Prop := (∃ n : Nat, IsHex cs n ∧ z = n) ∨ ¬ IsMarked cs ∧ IsDecimal cs z

end Numeral

/-- A text that is a numeral for a number once its blanks and underscores are dropped. -/
def Text.NumeralFor (t : Text) (z : Int) : Prop := ∃ cs, t.bare = Text.ofChars cs ∧ Numeral.IsNumeral cs z

namespace Numeral

/-! ## Digits -/

/-- The characters of a digit by their code points. -/
theorem digitChar_toNat : ∀ d < 16, (Nat.digitChar d).toNat = (if d < 10 then 48 + d else 87 + d) ∧
    (Nat.digitChar d).toUpper.toNat = if d < 10 then 48 + d else 55 + d := by
  decide

/-- The digits of a number, by their code points. -/
theorem isDigit_iff {c : Char} {d : Nat} (h : d < 16) :
    IsDigit c d ↔ (d < 10 ∧ c.toNat = 48 + d) ∨ (10 ≤ d ∧ (c.toNat = 87 + d ∨ c.toNat = 55 + d)) := by
  obtain ⟨hsmall, hcapital⟩ := digitChar_toNat d h
  rw [IsDigit, ← Char.toNat_inj, ← Char.toNat_inj, hsmall, hcapital]
  split
  · omega
  · omega

/-- A character has a value in hex exactly if it is a hex digit. -/
theorem hexValue?_eq_some_iff {c : Char} {d : Nat} : hexValue? c = some d ↔ IsDigit c d ∧ d < 16 := by
  have hcode : hexValue? c = some d ↔
      (d < 10 ∧ c.toNat = 48 + d) ∨ (10 ≤ d ∧ d < 16 ∧ (c.toNat = 87 + d ∨ c.toNat = 55 + d)) := by
    simp only [hexValue?, Bool.and_eq_true, decide_eq_true_eq]
    split_ifs <;> simp only [Option.some.injEq, false_iff] <;> omega
  rw [hcode]
  by_cases hd : d < 16
  · simp only [isDigit_iff hd, hd, true_and, and_true]
  · simp only [hd, false_and, and_false, or_false, iff_false]
    omega

/-- A digit is read exactly if it is below the base. -/
theorem digit?_eq_some_iff {base : Nat} {c : Char} {d : Nat} (hbase : base ≤ 16) :
    digit? base c = some d ↔ IsDigit c d ∧ d < base := by
  have hvalue : digit? base c = some d ↔ hexValue? c = some d ∧ d < base := by
    unfold digit?
    cases hexValue? c with
    | none => simp
    | some k =>
      simp only [Option.ite_none_right_eq_some, Option.some.injEq]
      constructor
      · rintro ⟨hk, rfl⟩
        exact ⟨rfl, hk⟩
      · rintro ⟨rfl, hk⟩
        exact ⟨hk, rfl⟩
  rw [hvalue, hexValue?_eq_some_iff, and_assoc]
  exact and_congr_right fun _ => by omega

/-- Digits are read one by one where no underscore stands between them. -/
theorem digits?_cons (base : Nat) {c : Char} {rest : List Char} (hline : '_' ∉ c :: rest) :
    digits? base (c :: rest) =
      (digit? base c).bind fun d => if rest = [] then some [d] else (digits? base rest).map (d :: ·) := by
  rw [digits?]
  cases digit? base c with
  | none => rfl
  | some d =>
    cases rest with
    | nil => rfl
    | cons next rest =>
      dsimp only [Option.bind_some]
      split
      · simp_all
      · simp_all
      · simp

/-- Without underscores the reader of digits takes digits and nothing else. -/
theorem digits?_eq_some_iff {base : Nat} {cs : List Char} {ds : List Nat} (hbase : base ≤ 16) (hline : '_' ∉ cs) :
    digits? base cs = some ds ↔ cs ≠ [] ∧ List.Forall₂ IsDigit cs ds ∧ ∀ d ∈ ds, d < base := by
  induction cs generalizing ds with
  | nil => simp [digits?]
  | cons c rest ih =>
    have hrest : '_' ∉ rest := fun h => hline (List.mem_cons_of_mem c h)
    rw [digits?_cons base hline, Option.bind_eq_some_iff]
    constructor
    · rintro ⟨d, hd, h⟩
      obtain ⟨hd, hlt⟩ := (digit?_eq_some_iff hbase).mp hd
      split at h
      · rename_i hnil
        cases h
        rw [hnil]
        exact ⟨List.cons_ne_nil c [], .cons hd .nil, by simpa using hlt⟩
      · obtain ⟨tail, htail, rfl⟩ := Option.map_eq_some_iff.mp h
        obtain ⟨-, hall, hlts⟩ := (ih hrest).mp htail
        exact ⟨List.cons_ne_nil c rest, .cons hd hall, List.forall_mem_cons.mpr ⟨hlt, hlts⟩⟩
    · rintro ⟨-, hall, hlts⟩
      cases hall with
      | cons hd hall =>
        obtain ⟨hlt, hlts⟩ := List.forall_mem_cons.mp hlts
        refine ⟨_, (digit?_eq_some_iff hbase).mpr ⟨hd, hlt⟩, ?_⟩
        split
        · rename_i hnil
          subst hnil
          cases hall
          rfl
        · rename_i hne
          rw [(ih hrest).mpr ⟨hne, hall, hlts⟩]
          rfl

/-- Digits spell a number with the highest place first. -/
theorem ofDigits_eq (base : Nat) (ds : List Nat) : ofDigits base ds = Nat.ofDigits base ds.reverse := by
  rw [Nat.ofDigits_eq_foldr, List.foldr_reverse, ofDigits]
  congr 1
  funext n d
  rw [Nat.cast_id]
  ring

/-- Marked digits are read exactly as the number that they spell in hex. -/
theorem markedBody?_eq_some_iff {cs : List Char} {n : Nat} (hline : '_' ∉ cs) : markedBody? 16 cs = some n ↔ Spells 16 cs n := by
  have hbody : markedBody? 16 cs = (digits? 16 cs).map (ofDigits 16) := by
    unfold markedBody?
    split
    · exact absurd List.mem_cons_self hline
    · rfl
  simp only [hbody, Option.map_eq_some_iff, digits?_eq_some_iff (Nat.le_refl 16) hline, ofDigits_eq, Spells, and_assoc,
    exists_and_left]

/-- Decimal digits are read exactly as the number that they spell, if they are not too many. -/
theorem decimalBody?_eq_some_iff {cs : List Char} {n : Nat} (hline : '_' ∉ cs) :
    decimalBody? cs = some n ↔ Spells 10 cs n ∧ cs.length ≤ maxDecimalDigits := by
  have hdigits : ∀ {ds}, digits? 10 cs = some ds ↔ _ := digits?_eq_some_iff (by decide : 10 ≤ 16) hline
  constructor
  · intro h
    unfold decimalBody? at h
    split at h
    · rename_i ds hds
      split at h
      · rename_i hlen
        cases h
        obtain ⟨hne, hall, hlts⟩ := hdigits.mp hds
        exact ⟨⟨hne, ds, hall, hlts, (ofDigits_eq 10 ds).symm⟩, by rwa [hall.length_eq]⟩
      · cases h
    · cases h
  · rintro ⟨⟨hne, ds, hall, hlts, rfl⟩, hlen⟩
    rw [hall.length_eq] at hlen
    unfold decimalBody?
    rw [hdigits.mpr ⟨hne, hall, hlts⟩, ← ofDigits_eq]
    exact if_pos hlen

/-- The digits of a number are ASCII digits and letters. -/
theorem Spells.code {base : Nat} {cs : List Char} {n : Nat} (hbase : base ≤ 16) (h : Spells base cs n) :
    ∀ c ∈ cs, 48 ≤ c.toNat ∧ c.toNat ≤ 57 ∨ 65 ≤ c.toNat ∧ c.toNat ≤ 70 ∨ 97 ≤ c.toNat ∧ c.toNat ≤ 102 := by
  obtain ⟨-, ds, hall, hlts, -⟩ := h
  induction hall with
  | nil => exact fun c hc => absurd hc List.not_mem_nil
  | cons hd _ ih =>
    obtain ⟨hlt, hlts⟩ := List.forall_mem_cons.mp hlts
    refine List.forall_mem_cons.mpr ⟨?_, ih hlts⟩
    rw [isDigit_iff (by omega)] at hd
    omega

/-! ## Signs and blanks -/

/-- A signed number is read exactly if its magnitude is. -/
theorem map_cast_eq_some_iff {read : Option Nat} {f : Int → Int} {z : Int} :
    Option.map f (do let n ← read; pure (n : Int)) = some z ↔ ∃ n : Nat, read = some n ∧ f n = z := by
  cases read with
  | none => simp
  | some n => simp

/-- Without underscores the reader takes a sign or none and then decimal digits. -/
theorem signed?_eq_some_iff {cs : List Char} {z : Int} (hline : '_' ∉ cs) :
    signed? decimalBody? cs = some z ↔
      ∃ sign ds n, cs = sign ++ ds ∧ Signs sign n z ∧ Spells 10 ds n ∧ ds.length ≤ maxDecimalDigits := by
  constructor
  · intro h
    unfold signed? at h
    split at h
    · obtain ⟨n, hn, rfl⟩ := map_cast_eq_some_iff.mp h
      rw [decimalBody?_eq_some_iff fun h => hline (List.mem_cons_of_mem _ h)] at hn
      exact ⟨['-'], _, n, rfl, .minus n, hn⟩
    · obtain ⟨n, hn, rfl⟩ := map_cast_eq_some_iff.mp h
      rw [decimalBody?_eq_some_iff fun h => hline (List.mem_cons_of_mem _ h)] at hn
      exact ⟨['+'], _, n, rfl, .plus n, hn⟩
    · obtain ⟨n, hn, rfl⟩ := map_cast_eq_some_iff.mp h
      rw [decimalBody?_eq_some_iff hline] at hn
      exact ⟨[], _, n, rfl, .none n, hn⟩
  · rintro ⟨sign, ds, n, rfl, hsign, hspells, hlen⟩
    have hbody : decimalBody? ds = some n :=
      (decimalBody?_eq_some_iff fun h => hline (List.mem_append_right sign h)).mpr ⟨hspells, hlen⟩
    cases hsign with
    | minus => exact map_cast_eq_some_iff.mpr ⟨n, hbody, rfl⟩
    | plus => exact map_cast_eq_some_iff.mpr ⟨n, hbody, rfl⟩
    | none =>
      -- A digit comes first, so no sign is seen.
      have hcode := hspells.code (by decide)
      rw [List.nil_append]
      unfold signed?
      split
      · exact absurd (hcode '-' List.mem_cons_self) (by decide)
      · exact absurd (hcode '+' List.mem_cons_self) (by decide)
      · exact map_cast_eq_some_iff.mpr ⟨n, hbody, rfl⟩

/-- A character that the reader sees as it is. -/
def Seen (c : Char) : Prop := c.toNat < 127 ∧ c.toNat ≠ 63

/-- A character of a numeral that is no blank. -/
def Solid (c : Char) : Prop := Seen c ∧ 32 < c.toNat

/-- A blank is seen. -/
theorem seen_of_blank {c : Char} (h : isAsciiBlank c = true) : Seen c := by
  simp only [isAsciiBlank, Bool.or_eq_true, beq_iff_eq, Bool.and_eq_true, decide_eq_true_eq] at h
  unfold Seen
  rcases h with rfl | h
  · decide
  · omega

/-- A solid character is not blank. -/
theorem Solid.not_blank {c : Char} (h : Solid c) : isAsciiBlank c = false ∧ isBlank c.toNat = false := by
  obtain ⟨⟨hhigh, -⟩, hlow⟩ := h
  have hspace : c ≠ ' ' := by
    rintro rfl
    exact absurd hlow (by decide)
  simp only [isAsciiBlank, isBlank, Bool.or_eq_false_iff, Bool.and_eq_false_iff, beq_eq_false_iff_ne, decide_eq_false_iff_not]
  exact ⟨⟨hspace, by omega⟩, by omega⟩

/-- Digits are solid. -/
theorem Spells.solid {base : Nat} {cs : List Char} {n : Nat} (h : Spells base cs n) (hbase : base ≤ 16) :
    ∀ c ∈ cs, Solid c := by
  intro c hc
  have hcode := h.code hbase c hc
  unfold Solid Seen
  omega

/-- Signs are solid. -/
theorem Signs.solid {sign : List Char} {n : Nat} {z : Int} (h : Signs sign n z) : ∀ c ∈ sign, Solid c := by
  cases h with
  | none => exact fun c hc => absurd hc List.not_mem_nil
  | plus => simp [Solid, Seen]
  | minus => simp [Solid, Seen]

/-- The last ASCII character is the only one that the reader sees as another. -/
theorem plain_eq_iff {c d : Char} (hc : c.toNat < 128) (hd : Seen d) : plain c = d ↔ c = d := by
  by_cases hlast : c.toNat < 127
  · rw [plain, if_pos hlast]
  · obtain rfl : c = Char.ofNat 127 := Char.toNat_inj.mp (by omega : c.toNat = 127)
    have hplain : plain (Char.ofNat 127) = '?' := by decide
    rw [hplain]
    constructor
    · rintro rfl
      exact absurd rfl hd.2
    · rintro rfl
      exact absurd hd.1 (by decide)

/-- ASCII text is seen as what it is. -/
theorem map_plain_eq_iff {cs ds : List Char} (hcs : ∀ c ∈ cs, c.toNat < 128) (hds : ∀ d ∈ ds, Seen d) :
    cs.map plain = ds ↔ cs = ds := by
  induction cs generalizing ds with
  | nil => rfl
  | cons c cs ih =>
    cases ds with
    | nil => simp
    | cons d ds =>
      obtain ⟨hc, hcs⟩ := List.forall_mem_cons.mp hcs
      obtain ⟨hd, hds⟩ := List.forall_mem_cons.mp hds
      rw [List.map_cons, List.cons.injEq, List.cons.injEq, plain_eq_iff hc hd, ih hcs hds]

/-- No underscore is seen where there is none. -/
theorem not_mem_map_plain {cs : List Char} (hcs : ∀ c ∈ cs, c.toNat < 128) (hline : '_' ∉ cs) : '_' ∉ cs.map plain := by
  rw [List.mem_map]
  rintro ⟨c, hc, hplain⟩
  rw [plain_eq_iff (hcs c hc) ⟨by decide, by decide⟩] at hplain
  exact hline (hplain ▸ hc)

/-- Behind the mark, the reader takes hex digits and blanks behind them. -/
theorem hex?_eq_some_iff {cs : List Char} {n : Nat} (hcs : ∀ c ∈ cs, c.toNat < 128) (hline : '_' ∉ cs) :
    hex? cs = some n ↔ ∃ ds back, cs = ds ++ back ∧ Spells 16 ds n ∧ ∀ c ∈ back, isAsciiBlank c = true := by
  have hseen : ∀ {ds back : List Char}, Spells 16 ds n → (∀ c ∈ back, isAsciiBlank c = true) → ∀ c ∈ ds ++ back, Seen c :=
    fun hspells hback => List.forall_mem_append.mpr
      ⟨fun c hc => (hspells.solid (Nat.le_refl 16) c hc).1, fun c hc => seen_of_blank (hback c hc)⟩
  constructor
  · intro h
    obtain ⟨back, hsplit, hback⟩ := exists_trimEnd isAsciiBlank (cs.map plain)
    have htrim : '_' ∉ trimEnd isAsciiBlank (cs.map plain) := by
      intro hmem
      refine not_mem_map_plain hcs hline ?_
      rw [hsplit]
      exact List.mem_append_left back hmem
    have hspells := (markedBody?_eq_some_iff htrim).mp h
    exact ⟨_, back, (map_plain_eq_iff hcs (hseen hspells hback)).mp hsplit, hspells, hback⟩
  · rintro ⟨ds, back, rfl, hspells, hback⟩
    have hplain : (ds ++ back).map plain = ds ++ back := (map_plain_eq_iff hcs (hseen hspells hback)).mpr rfl
    rw [hex?, hplain, trimEnd_append (fun c hc => (hspells.solid (Nat.le_refl 16) c hc).not_blank.1) hback]
    exact (markedBody?_eq_some_iff fun hmem => hline (List.mem_append_left back hmem)).mpr hspells

/-- The reader of decimal numerals takes a sign or none and decimal digits, with blanks around them. -/
theorem decimal?_eq_some_iff {cs : List Char} {z : Int} (hcs : ∀ c ∈ cs, c.toNat < 128) (hline : '_' ∉ cs) :
    decimal? cs = some z ↔ IsDecimal cs z := by
  have hsolid : ∀ {sign ds : List Char} {n : Nat}, Signs sign n z → Spells 10 ds n → ∀ c ∈ sign ++ ds, Solid c :=
    fun hsign hspells => List.forall_mem_append.mpr ⟨hsign.solid, hspells.solid (by decide)⟩
  have hseen : ∀ {front body back : List Char}, (∀ c ∈ body, Solid c) → (∀ c ∈ front, isAsciiBlank c = true) →
      (∀ c ∈ back, isAsciiBlank c = true) → ∀ c ∈ front ++ body ++ back, Seen c :=
    fun hbody hfront hback => List.forall_mem_append.mpr
      ⟨List.forall_mem_append.mpr ⟨fun c hc => seen_of_blank (hfront c hc), fun c hc => (hbody c hc).1⟩,
        fun c hc => seen_of_blank (hback c hc)⟩
  constructor
  · intro h
    obtain ⟨front, back, hsplit, hfront, hback⟩ := exists_trimBoth isAsciiBlank (cs.map plain)
    have htrim : '_' ∉ trimmed cs := by
      intro hmem
      refine not_mem_map_plain hcs hline ?_
      rw [hsplit]
      exact List.mem_append_left back (List.mem_append_right front hmem)
    obtain ⟨sign, ds, n, hbody, hsign, hspells, hlen⟩ := (signed?_eq_some_iff htrim).mp h
    have hbody : trimBoth isAsciiBlank (cs.map plain) = sign ++ ds := hbody
    rw [hbody, map_plain_eq_iff hcs (hseen (hsolid hsign hspells) hfront hback)] at hsplit
    exact ⟨front, sign, ds, back, n, hsplit, hsign, hspells, hlen, hfront, hback⟩
  · rintro ⟨front, sign, ds, back, n, rfl, hsign, hspells, hlen, hfront, hback⟩
    have hbody := hsolid hsign hspells
    have hplain := (map_plain_eq_iff hcs (hseen hbody hfront hback)).mpr rfl
    have htrim : trimmed (front ++ (sign ++ ds) ++ back) = sign ++ ds := by
      rw [trimmed, hplain]
      exact trimBoth_append hfront (fun c hc => (hbody c hc).not_blank.1) hback
    have hline : '_' ∉ sign ++ ds := fun hmem => hline (List.mem_append_left back (List.mem_append_right front hmem))
    rw [decimal?, htrim]
    exact (signed?_eq_some_iff hline).mpr ⟨sign, ds, n, rfl, hsign, hspells, hlen⟩

/-- After a hex mark a numeral is what is read as hex. -/
theorem isNumeral_marked_iff {mark : Char} {rest : List Char} {z : Int} (hmark : mark = 'x' ∨ mark = 'X')
    (hcs : ∀ c ∈ '0' :: mark :: rest, c.toNat < 128) (hline : '_' ∉ '0' :: mark :: rest) :
    IsNumeral ('0' :: mark :: rest) z ↔ ∃ n : Nat, hex? rest = some n ∧ (n : Int) = z := by
  have hsub : ∀ c ∈ rest, c ∈ '0' :: mark :: rest := fun c hc => List.mem_cons_of_mem _ (List.mem_cons_of_mem _ hc)
  have hread : ∀ n, hex? rest = some n ↔ _ := fun n =>
    hex?_eq_some_iff (fun c hc => hcs c (hsub c hc)) (fun hc => hline (hsub _ hc))
  constructor
  · rintro (⟨n, ⟨_, ds, back, heq, -, hspells, hback⟩, rfl⟩ | ⟨hunmarked, -⟩)
    · cases heq
      exact ⟨n, (hread n).mpr ⟨ds, back, rfl, hspells, hback⟩, rfl⟩
    · exact absurd ⟨mark, rest, hmark, rfl⟩ hunmarked
  · rintro ⟨n, hn, rfl⟩
    obtain ⟨ds, back, rfl, hspells, hback⟩ := (hread n).mp hn
    exact .inl ⟨n, ⟨mark, ds, back, rfl, hmark, hspells, hback⟩, rfl⟩

/-- Without a hex mark a numeral is what is read as decimal. -/
theorem isNumeral_unmarked_iff {cs : List Char} {z : Int} (hunmarked : ¬ IsMarked cs) (hcs : ∀ c ∈ cs, c.toNat < 128)
    (hline : '_' ∉ cs) : IsNumeral cs z ↔ decimal? cs = some z := by
  rw [decimal?_eq_some_iff hcs hline]
  constructor
  · rintro (⟨n, ⟨mark, ds, back, rfl, hmark, -⟩, -⟩ | ⟨-, hdecimal⟩)
    · exact absurd ⟨mark, ds ++ back, hmark, rfl⟩ hunmarked
    · exact hdecimal
  · exact fun hdecimal => .inr ⟨hunmarked, hdecimal⟩

end Numeral

/-! ## Texts of numerals -/

namespace Text

/-- Different characters make different texts. -/
theorem ofChars_inj {cs ds : List Char} : ofChars cs = ofChars ds ↔ cs = ds := by
  rw [← codes_inj]
  exact (List.map_injective_iff.mpr fun _ _ => Char.toNat_inj.mp).eq_iff

/-- ASCII text is made of characters. -/
theorem IsAscii.exists_chars {t : Text} (h : t.IsAscii) : ∃ cs, t = ofChars cs ∧ ∀ c ∈ cs, c.toNat < 128 := by
  have hscalars : t.codes.all isScalar = true := by
    refine List.all_eq_true.mpr fun code hcode => ?_
    have hcode := h code hcode
    simp only [isScalar, Bool.or_eq_true, decide_eq_true_eq]
    omega
  obtain ⟨cs, hcs⟩ : ∃ cs, t.chars? = some cs := ⟨_, if_pos hscalars⟩
  obtain rfl := chars?_eq_some_iff.mp hcs
  exact ⟨cs, rfl, fun c hc => h c.toNat (List.mem_map_of_mem hc)⟩

/-- ASCII text stays so when it is bared. -/
theorem IsAscii.bare {t : Text} (h : t.IsAscii) : t.bare.IsAscii := by
  intro code hcode
  obtain ⟨front, back, hsplit, -, -⟩ := exists_trimBoth isBlank t.codes
  refine h code ?_
  rw [hsplit]
  exact List.mem_append_left back (List.mem_append_right front (List.mem_of_mem_filter hcode))

/-- Bare text is stripped text without underscores. -/
theorem bare_of_strip {t : Text} {cs : List Char} (h : t.strip = ofChars cs) : t.bare = ofChars (cs.filter (· != '_')) := by
  have hsame : ((· != '_'.toNat) ∘ Char.toNat : Char → Bool) = (· != '_') := by
    funext c
    rw [Function.comp_apply, Bool.eq_iff_iff, bne_iff_ne, bne_iff_ne, ne_eq, ne_eq, Char.toNat_inj]
  rw [bare, h, ofChars, List.filter_map, hsame]
  rfl

/-- A text whose numeral is ASCII has characters, and the numeral is what underscores leave of them. -/
theorem strip_of_bare {t : Text} (h : t.bare.IsAscii) :
    ∃ cs, t.strip = ofChars cs ∧ ∀ c ∈ cs.filter (· != '_'), c.toNat < 128 := by
  have hstrip : t.strip.IsAscii := by
    intro code hcode
    by_cases hline : code = '_'.toNat
    · rw [hline]
      decide
    · exact h code (List.mem_filter.mpr ⟨hcode, bne_iff_ne.mpr hline⟩)
  obtain ⟨cs, hcs, hlt⟩ := hstrip.exists_chars
  exact ⟨cs, hcs, fun c hc => hlt c (List.mem_of_mem_filter hc)⟩

end Text

/-- The reader of a caller's numeral takes exactly the numerals, if what blanks and underscores leave of the text is ASCII. -/
theorem readNumber?_eq_some_iff {s : Text} {z : Int} (hascii : s.bare.IsAscii) : readNumber? s = some z ↔ s.NumeralFor z := by
  obtain ⟨all, hstrip, hcs⟩ := Text.strip_of_bare hascii
  have hread : s.strip.chars?.map (·.filter (· != '_')) = some (all.filter (· != '_')) := by
    rw [Text.chars?_eq_some_iff.mpr hstrip, Option.map_some]
  have hline : '_' ∉ all.filter (· != '_') := by simp
  simp only [Text.NumeralFor, Text.bare_of_strip hstrip, Text.ofChars_inj, exists_eq_left']
  generalize all.filter (· != '_') = cs at *
  unfold readNumber?
  rw [hread]
  split
  · rename_i rest heq
    cases heq
    rw [Numeral.map_cast_eq_some_iff, Numeral.isNumeral_marked_iff (.inl rfl) hcs hline]
  · rename_i rest heq
    cases heq
    rw [Numeral.map_cast_eq_some_iff, Numeral.isNumeral_marked_iff (.inr rfl) hcs hline]
  · rename_i hsmall hcapital heq
    cases heq
    have hunmarked : ¬ Numeral.IsMarked cs := by
      rintro ⟨mark, rest, rfl | rfl, hmarked⟩
      · exact hsmall rest hmarked
      · exact hcapital rest hmarked
    rw [Numeral.isNumeral_unmarked_iff hunmarked hcs hline]
  · rename_i heq
    cases heq

/-! ## Numbers written and read back -/

namespace Numeral

/-- One more digit goes to the lowest place. -/
theorem Spells.snoc {base : Nat} {cs : List Char} {n : Nat} (h : Spells base cs n) {c : Char} {d : Nat} (hd : IsDigit c d)
    (hlt : d < base) : Spells base (cs ++ [c]) (n * base + d) := by
  obtain ⟨-, ds, hall, hlts, rfl⟩ := h
  refine ⟨by simp, ds ++ [d], List.rel_append hall (.cons hd .nil), ?_, ?_⟩
  · exact List.forall_mem_append.mpr ⟨hlts, by simpa using hlt⟩
  · rw [List.reverse_append, List.reverse_singleton, List.singleton_append, Nat.ofDigits_cons]
    ring

/-- The digits of a number spell it. -/
theorem spells_toDigits {base : Nat} (hbase : 1 < base) (n : Nat) : Spells base (Nat.toDigits base n) n := by
  induction n using Nat.strong_induction_on with
  | _ n ih =>
    rw [Nat.toDigits_eq_if hbase]
    split
    · rename_i hlt
      exact ⟨List.cons_ne_nil _ _, [n], .cons (.inl rfl) .nil, by simpa using hlt, by simp⟩
    · rename_i hge
      have hstep := (ih (n / base) (Nat.div_lt_self (by omega) hbase)).snoc (.inl rfl) (Nat.mod_lt n (by omega))
      rwa [Nat.div_add_mod'] at hstep

/-- Digits carry no hex mark. -/
theorem Spells.not_isMarked {base : Nat} {cs : List Char} {n : Nat} (h : Spells base cs n) (hbase : base ≤ 16) :
    ¬ IsMarked cs := by
  rintro ⟨mark, rest, rfl | rfl, rfl⟩
  · exact absurd (h.code hbase 'x' (by simp)) (by decide)
  · exact absurd (h.code hbase 'X' (by simp)) (by decide)

/-- A number in hex is marked. -/
theorem toList_hexNumber (n : Nat) : (hexNumber n).toList = '0' :: 'x' :: Nat.toDigits 16 n := by
  rw [hexNumber, if_neg (by omega)]
  simp

/-- The hex text of a number is a numeral for it. -/
theorem isNumeral_hexNumber (n : Nat) : IsNumeral (hexNumber n).toList n := by
  rw [toList_hexNumber]
  exact .inl ⟨n, ⟨'x', _, [], by rw [List.append_nil], .inl rfl, spells_toDigits (by decide) n, by simp⟩, rfl⟩

/-- So is its decimal text if it is short enough. -/
theorem isNumeral_decimalNat {n : Nat} (h : (decimalNat n).length ≤ maxDecimalDigits) : IsNumeral (decimalNat n).toList n := by
  have hspells := spells_toDigits (by decide : 1 < 10) n
  rw [decimalNat, String.toList_ofList]
  refine .inr ⟨hspells.not_isMarked (by decide), [], [], _, [], n, by simp, .none n, hspells, ?_, by simp, by simp⟩
  rwa [decimalNat, String.length_ofList] at h

/-- A number in hex is solid. -/
theorem solid_hexNumber (n : Nat) : ∀ c ∈ (hexNumber n).toList, Solid c := by
  rw [toList_hexNumber]
  refine List.forall_mem_cons.mpr ⟨by simp [Solid, Seen], List.forall_mem_cons.mpr ⟨by simp [Solid, Seen], ?_⟩⟩
  exact (spells_toDigits (by decide) n).solid (Nat.le_refl 16)

/-- A number in decimal is solid. -/
theorem solid_decimalNat (n : Nat) : ∀ c ∈ (decimalNat n).toList, Solid c := by
  rw [decimalNat, String.toList_ofList]
  exact (spells_toDigits (by decide) n).solid (by decide : 10 ≤ 16)

end Numeral

/-- Blanks around a text and underscores in it are bared off. -/
theorem Text.bare_pad {front u back : List Char} (hfront : ∀ c ∈ front, isBlank c.toNat = true)
    (hu : ∀ c ∈ u, isBlank c.toNat = false) (hback : ∀ c ∈ back, isBlank c.toNat = true) :
    (Text.ofChars (front ++ u ++ back)).bare = Text.ofChars (u.filter (· != '_')) := by
  refine Text.bare_of_strip ?_
  rw [Text.strip, Text.ofChars, List.map_append, List.map_append, trimBoth_append]
  · rfl
  · exact List.forall_mem_map.mpr hfront
  · exact List.forall_mem_map.mpr hu
  · exact List.forall_mem_map.mpr hback

/-- A numeral without blanks is read with underscores put into it and then blanks put around it. -/
theorem readNumber?_pad {front u back cs : List Char} {z : Int} (hfront : ∀ c ∈ front, isBlank c.toNat = true)
    (hback : ∀ c ∈ back, isBlank c.toNat = true) (hu : u.filter (· != '_') = cs) (hsolid : ∀ c ∈ cs, Numeral.Solid c)
    (hnumeral : Numeral.IsNumeral cs z) : readNumber? (Text.ofChars (front ++ u ++ back)) = some z := by
  have hblank : ∀ c ∈ u, isBlank c.toNat = false := by
    intro c hc
    by_cases hline : c = '_'
    · rw [hline]
      decide
    · refine (hsolid c ?_).not_blank.2
      rw [← hu]
      exact List.mem_filter.mpr ⟨hc, bne_iff_ne.mpr hline⟩
  have hbare := Text.bare_pad hfront hblank hback
  rw [hu] at hbare
  refine (readNumber?_eq_some_iff ?_).mpr ⟨cs, hbare, hnumeral⟩
  rw [hbare]
  refine List.forall_mem_map.mpr fun c hc => ?_
  have hseen := (hsolid c hc).1.1
  omega

/-! ## Numbers that fit -/

/-- A number that does not fit is refused as a value if the width has a text, and otherwise cannot be. -/
theorem fitUInt_of_out {bits : Nat} {z : Int} (hneg : z < 0 → z.natAbs < 10 ^ maxDecimalDigits) (hout : z < 0 ∨ 2 ^ bits ≤ z) :
    (bits < 10 ^ maxDecimalDigits → ∃ f, fitUInt bits z = .error (.domain f)) ∧
      (10 ^ maxDecimalDigits ≤ bits → fitUInt bits z = .error (.misuse .tooManyDigits)) := by
  have hok : bits < 10 ^ maxDecimalDigits → Value.decimalText bits = .ok (decimalInt bits) := fun h => Json.decimalText_ok h
  have herror : 10 ^ maxDecimalDigits ≤ bits → Value.decimalText bits = .error (.misuse .tooManyDigits) :=
    fun h => Json.decimalText_error h
  unfold fitUInt
  by_cases hz : z < 0
  · rw [if_pos hz]
    refine ⟨fun h => ?_, fun h => ?_⟩
    · rw [hok h, Json.decimalText_ok (hneg hz)]
      exact ⟨_, rfl⟩
    · rw [herror h]
      rfl
  · obtain ⟨n, rfl⟩ := Int.eq_ofNat_of_zero_le (by omega : 0 ≤ z)
    have hwide : (bits : Int) < bitLength n := by
      have hpow : 2 ^ bits ≤ n := by exact_mod_cast hout.resolve_left hz
      have hbits := mt (bitLength_le_iff n bits).mp (not_lt.mpr hpow)
      omega
    rw [if_neg hz, Int.toNat_natCast, if_pos hwide]
    refine ⟨fun h => ?_, fun h => ?_⟩
    · rw [hok h]
      exact ⟨_, rfl⟩
    · rw [herror h]
      rfl

/-- A text is no numeral, a numeral for a number that fits, or one for a number that does not. -/
theorem coerceUInt_text_cases (bits : Nat) (s : Text) :
    (readNumber? s = none ∧ ∃ f, coerceUInt bits (.text s) = .error (.domain f)) ∨
    (∃ v : Nat, readNumber? s = some (v : Int) ∧ v < 2 ^ bits ∧ coerceUInt bits (.text s) = .ok v) ∨
    ∃ z, readNumber? s = some z ∧ (z < 0 ∨ 2 ^ bits ≤ z) ∧
      (bits < 10 ^ maxDecimalDigits → ∃ f, coerceUInt bits (.text s) = .error (.domain f)) ∧
      (10 ^ maxDecimalDigits ≤ bits → coerceUInt bits (.text s) = .error (.misuse .tooManyDigits)) := by
  cases hread : readNumber? s with
  | none => exact .inl ⟨rfl, _, by rw [coerceUInt, hread]; rfl⟩
  | some z =>
    have hcoerce : coerceUInt bits (.text s) = fitUInt bits z := by rw [coerceUInt, hread]
    rw [hcoerce]
    by_cases hout : z < 0 ∨ 2 ^ bits ≤ z
    · exact .inr (.inr ⟨z, rfl, hout, fitUInt_of_out (readNumber?_bounds hread).1 hout⟩)
    · obtain ⟨v, rfl⟩ := Int.eq_ofNat_of_zero_le (by omega : 0 ≤ z)
      have hv : v < 2 ^ bits := by
        have hlt : (v : Int) < 2 ^ bits := by omega
        exact_mod_cast hlt
      exact .inr (.inl ⟨v, rfl, hv, fitUInt_eq_ok_iff.mpr ⟨rfl, by exact_mod_cast (bitLength_le_iff v bits).mpr hv⟩⟩)

/-- Numerals are taken exactly by their grammar, and nothing is wrapped. An ASCII text is taken for a number exactly if it is a
numeral for it and the number has at most as many binary digits as asked for. Every other ASCII text is refused as a value, except
that a width of more than 4300 decimal digits cannot be told: then a numeral for a number that does not fit is a misuse. In
particular the hex text of a number that fits, and its decimal text of at most 4300 digits, are read back with underscores put
into them and then blanks put around them. -/
theorem numerals_taken_exactly (bits : Nat) :
    (∀ s : Text, s.IsAscii →
      (∀ v : Nat, coerceUInt bits (.text s) = .ok v ↔ v < 2 ^ bits ∧ s.NumeralFor v) ∧
      ((∃ f, coerceUInt bits (.text s) = .error (.domain f)) ↔
        (∀ v < 2 ^ bits, ¬ s.NumeralFor (v : Nat)) ∧ (bits < 10 ^ maxDecimalDigits ∨ ∀ z, ¬ s.NumeralFor z)) ∧
      (coerceUInt bits (.text s) = .error (.misuse .tooManyDigits) ↔
        10 ^ maxDecimalDigits ≤ bits ∧ ∃ z, s.NumeralFor z ∧ (z < 0 ∨ 2 ^ bits ≤ z))) ∧
    (∀ (n : Nat) (written : String) (front u back : List Char), n < 2 ^ bits →
      written = hexNumber n ∨ (written = decimalNat n ∧ written.length ≤ maxDecimalDigits) →
      u.filter (· != '_') = written.toList →
      (∀ c ∈ front, isBlank c.toNat = true) → (∀ c ∈ back, isBlank c.toNat = true) →
      coerceUInt bits (.text (.ofChars (front ++ u ++ back))) = .ok n) := by
  constructor
  · intro s hascii
    have hnumbers : ∀ z, s.NumeralFor z ↔ readNumber? s = some z := fun z => (readNumber?_eq_some_iff hascii.bare).symm
    have hne : ∀ f, Fault.domain f ≠ .misuse .tooManyDigits := fun f h => by cases h
    simp only [hnumbers]
    rcases coerceUInt_text_cases bits s with ⟨hread, f, hcoerce⟩ | ⟨v, hread, hv, hcoerce⟩ | ⟨z, hread, hout, hdomain, hmisuse⟩
    · simp [hread, hcoerce, hne]
    · have hlt : (v : Int) < 2 ^ bits := by exact_mod_cast hv
      simp only [hread, hcoerce, Option.some.injEq, Except.ok.injEq, reduceCtorEq, exists_false, false_iff]
      refine ⟨fun w => ⟨?_, fun h => by exact_mod_cast h.2⟩, ?_, ?_⟩
      · rintro rfl
        exact ⟨hv, rfl⟩
      · exact fun h => h.1 v hv rfl
      · rintro ⟨-, z, rfl, hout⟩
        omega
    · have hfits : ∀ w < 2 ^ bits, z ≠ (w : Nat) := by
        rintro w hw rfl
        have hlt : (w : Int) < 2 ^ bits := by exact_mod_cast hw
        omega
      rcases Nat.lt_or_ge bits (10 ^ maxDecimalDigits) with hbits | hbits
      · obtain ⟨f, hcoerce⟩ := hdomain hbits
        simp only [hread, hcoerce, Option.some.injEq, Except.error.injEq, reduceCtorEq, false_iff, hne]
        exact ⟨fun w h => hfits w h.1 h.2, ⟨fun _ => ⟨hfits, .inl hbits⟩, fun _ => ⟨f, rfl⟩⟩, fun h => absurd h.1 (by omega)⟩
      · simp only [hread, hmisuse hbits, Option.some.injEq, Except.error.injEq, reduceCtorEq, false_iff, true_iff, (hne _).symm,
          exists_false]
        exact ⟨fun w h => hfits w h.1 h.2, fun h => h.2.elim (by omega) (fun hnone => hnone z rfl), hbits, z, rfl, hout⟩
  · intro n written front u back hn hwritten hu hfront hback
    have hread : readNumber? (.ofChars (front ++ u ++ back)) = some (n : Int) := by
      rcases hwritten with rfl | ⟨rfl, hlen⟩
      · exact readNumber?_pad hfront hback hu (Numeral.solid_hexNumber n) (Numeral.isNumeral_hexNumber n)
      · exact readNumber?_pad hfront hback hu (Numeral.solid_decimalNat n) (Numeral.isNumeral_decimalNat hlen)
    rw [coerceUInt, hread]
    exact fitUInt_eq_ok_iff.mpr ⟨rfl, by exact_mod_cast (bitLength_le_iff n bits).mpr hn⟩

/-- The law at numerals for a byte: hex digits of either case among underscores, a sign that no mark may follow, and a decimal text
in pieces. -/
theorem numerals_taken_exactly_for_byte :
    Text.IsAscii "\t0_Xf_F\n" ∧ Text.NumeralFor "\t0_Xf_F\n" 255 ∧ coerceUInt 8 (.text "\t0_Xf_F\n") = .ok 255 ∧
    (∀ v < 2 ^ 8, ¬ Text.NumeralFor "-0x1" (v : Nat)) ∧
    coerceUInt 8 (.text (.ofChars (['\x1c'] ++ "_2__00_".toList ++ [' ', '\r']))) = .ok 200 := by
  have hascii : Text.IsAscii "\t0_Xf_F\n" := by unfold Text.IsAscii; decide
  have hminus : Text.IsAscii "-0x1" := by unfold Text.IsAscii; decide
  have hspells : Numeral.Spells 16 ['f', 'F'] 255 :=
    ⟨List.cons_ne_nil _ _, [15, 15], .cons (.inl rfl) (.cons (.inr rfl) .nil), by decide, by decide⟩
  have hnumbers : Text.NumeralFor "\t0_Xf_F\n" 255 :=
    ⟨"0XfF".toList, by decide, .inl ⟨255, ⟨'X', ['f', 'F'], [], rfl, .inr rfl, hspells, by simp⟩, rfl⟩⟩
  refine ⟨hascii, hnumbers, ?_, ?_, ?_⟩
  · exact (((numerals_taken_exactly 8).1 _ hascii).1 255).mpr ⟨by decide, hnumbers⟩
  · exact (((numerals_taken_exactly 8).1 _ hminus).2.1.mp ⟨_, rfl⟩).1
  · exact (numerals_taken_exactly 8).2 200 "200" _ _ _ (by decide) (.inr ⟨by decide, by decide⟩) (by decide) (by simp [isBlank])
      (by simp [isBlank])

/-- A number below zero cannot be refused as a value where the width has more digits than can be told. -/
theorem numeral_not_refused_at_untold_width :
    Text.IsAscii "-1" ∧ Text.NumeralFor "-1" (-1) ∧
      coerceUInt (10 ^ maxDecimalDigits : Nat) (.text "-1") = .error (.misuse .tooManyDigits) := by
  have hascii : Text.IsAscii "-1" := by unfold Text.IsAscii; decide
  have hread : readNumber? "-1" = some (-1) := by decide
  refine ⟨hascii, (readNumber?_eq_some_iff hascii.bare).mp hread, ?_⟩
  rw [coerceUInt, hread]
  exact (fitUInt_of_out (readNumber?_bounds hread).1 (.inl (by decide))).2 (Nat.le_refl _)

end WordSlot
