import WordSlot.Proofs.JsonText
import WordSlot.Proofs.Shortest

/-!
# JSON numbers are read back

A number is written with an optional sign, whole digits, an optional fraction and an optional exponent. The reader takes exactly
these parts where nothing follows that could belong to them. The digits of a whole number are read as that number, and the
shortest decimal of a double is read as that double.
-/

namespace WordSlot

namespace Json

/-! ## Digits -/

/-- The value of digits is the number that they spell. -/
theorem digitsValue_eq (cs : List Char) : Double.digitsValue cs = Nat.ofDigitChars 10 cs 0 := by
  unfold Double.digitsValue Nat.ofDigitChars
  congr 1
  funext n c
  rw [Nat.mul_comm]
  rfl

/-- One more digit goes to the lowest place. -/
theorem digitsValue_snoc (cs : List Char) (c : Char) :
    Double.digitsValue (cs ++ [c]) = Double.digitsValue cs * 10 + (c.toNat - 48) :=
  List.foldl_concat _ _ _ _

/-- Digits in front count by the number of those behind. -/
theorem digitsValue_append (as bs : List Char) :
    Double.digitsValue (as ++ bs) = Double.digitsValue as * 10 ^ bs.length + Double.digitsValue bs := by
  induction bs using List.reverseRecOn with
  | nil => simp [Double.digitsValue]
  | append_singleton bs c ih =>
    rw [← List.append_assoc, digitsValue_snoc, digitsValue_snoc, ih, List.length_append, List.length_singleton, pow_succ]
    ring

/-- A number is the value of its digits. -/
theorem digitsValue_toDigits (n : Nat) : Double.digitsValue (Nat.toDigits 10 n) = n := by
  rw [digitsValue_eq, Nat.ofDigitChars_toDigits (by decide) (by decide)]

/-- Zeros have no value. -/
theorem digitsValue_zeros (n : Nat) : Double.digitsValue (List.replicate n '0') = 0 := by
  induction n with
  | zero => rfl
  | succ n ih => rw [List.replicate_succ', digitsValue_append, ih]; rfl

/-- Only zero starts with a zero. -/
theorem eq_zero_of_head_toDigits {n : Nat} (h : (Nat.toDigits 10 n).head? = some '0') : n = 0 := by
  induction n using Nat.strong_induction_on with
  | _ n ih =>
    rw [Nat.toDigits_eq_if (by decide)] at h
    split at h
    · rename_i hlt
      have hdigits : ∀ d < 10, Nat.digitChar d = '0' → d = 0 := by decide
      exact hdigits n hlt (by simpa using h)
    · rename_i hge
      rw [List.head?_append_of_ne_nil _ Nat.toDigits_ne_nil] at h
      have hzero := ih (n / 10) (by omega) h
      omega

/-- A number is made of digits. -/
theorem isDigit_toDigits (n : Nat) : ∀ c ∈ Nat.toDigits 10 n, c.isDigit = true := fun _ hc =>
  Nat.isDigit_of_mem_toDigits (by decide) (by decide) hc

/-! ## The parts of a number -/

/-- What cannot go on a run of digits. -/
def NoDigit (rest : List Char) : Prop := ∀ c, rest.head? = some c → c.isDigit = false

/-- Digits are read up to the first character that is none. -/
theorem spanDigits_append {ds rest : List Char} (hds : ∀ c ∈ ds, c.isDigit = true) (hrest : NoDigit rest) :
    Double.spanDigits (ds ++ rest) = (ds, rest) := by
  unfold Double.spanDigits
  rw [List.takeWhile_append_of_pos hds, List.dropWhile_append_of_pos hds]
  cases rest with
  | nil => simp
  | cons c rest => simp [hrest c rfl]

namespace NumberParts

/-- The text of a fraction. -/
def fractionPart (p : NumberParts) : List Char := if p.fraction.isEmpty then [] else '.' :: p.fraction

/-- The text of an exponent. -/
def exponentPart (p : NumberParts) : List Char :=
  match p.exponent with
  | some (negative, ds) => 'e' :: (if negative then '-' else '+') :: ds
  | none => []

/-- The text of a number's parts. -/
def text (p : NumberParts) : List Char := p.whole ++ (p.fractionPart ++ p.exponentPart)

/-- Parts that a number can have: digits, at least one of them before the point and in the exponent, and no zero in front of
others. -/
structure Valid (p : NumberParts) : Prop where
  nonempty : p.whole ≠ []
  whole : ∀ c ∈ p.whole, c.isDigit = true
  zero : p.whole.head? = some '0' → p.whole = ['0']
  fraction : ∀ c ∈ p.fraction, c.isDigit = true
  exponent : ∀ negative ds, p.exponent = some (negative, ds) → ds ≠ [] ∧ ∀ c ∈ ds, c.isDigit = true

end NumberParts

/-- What ends a value cannot go on a number. -/
theorem Ends.not_number {c : Char} {cs : List Char} (h : Ends (c :: cs)) :
    c.isDigit = false ∧ c ≠ '.' ∧ (c == 'e' || c == 'E') = false := by
  rcases h.cases with rfl | rfl | rfl | rfl | rfl | rfl | rfl <;> decide

/-- An end is no digit. -/
theorem Ends.noDigit {rest : List Char} (h : Ends rest) : NoDigit rest := by
  intro c hc
  cases rest with
  | nil => nomatch hc
  | cons d rest =>
    obtain rfl : d = c := by simpa using hc
    exact h.not_number.1

section

variable {p : NumberParts} (h : p.Valid) (hends : Ends p.rest)
include h hends

/-- An exponent that is written is split off. -/
theorem splitExponent_part : splitExponent (p.exponentPart ++ p.rest) = (p.exponent, p.rest) := by
  unfold NumberParts.exponentPart
  split
  · rename_i negative ds hexponent
    obtain ⟨hne, hds⟩ := h.exponent negative ds hexponent
    have hspan := spanDigits_append hds hends.noDigit
    have hempty : ds.isEmpty = false := List.isEmpty_eq_false_iff.mpr hne
    cases negative <;> simp [splitExponent, hspan, hempty, hexponent]
  · rename_i hexponent
    rw [hexponent, List.nil_append]
    cases hrest : p.rest with
    | nil => rfl
    | cons c rest =>
      rw [hrest] at hends
      simp [splitExponent, hends.not_number.2.2]

omit h in
/-- What follows the digits of a number goes on neither with a digit nor with a point. -/
theorem exponentPart_follows {c : Char} (hc : (p.exponentPart ++ p.rest).head? = some c) : c.isDigit = false ∧ c ≠ '.' := by
  unfold NumberParts.exponentPart at hc
  split at hc
  · obtain rfl : 'e' = c := by simpa using hc
    decide
  · rw [List.nil_append] at hc
    cases hrest : p.rest with
    | nil =>
      rw [hrest] at hc
      nomatch hc
    | cons d rest =>
      rw [hrest] at hc hends
      obtain rfl : d = c := by simpa using hc
      exact ⟨hends.not_number.1, hends.not_number.2.1⟩

/-- A fraction that is written is split off. -/
theorem splitFraction_part : splitFraction (p.fractionPart ++ (p.exponentPart ++ p.rest)) =
    (p.fraction, p.exponentPart ++ p.rest) := by
  have hnext : ∀ {c}, (p.exponentPart ++ p.rest).head? = some c → c.isDigit = false ∧ c ≠ '.' := exponentPart_follows hends
  unfold NumberParts.fractionPart
  cases hfraction : p.fraction with
  | nil =>
    simp only [List.isEmpty_nil, if_true, List.nil_append]
    unfold splitFraction
    split
    · rename_i heq
      exact absurd rfl (hnext (by rw [heq]; rfl)).2
    · rfl
  | cons c ds =>
    have hds := h.fraction
    rw [hfraction] at hds
    have hspan := spanDigits_append hds fun c hc => (hnext hc).1
    simp only [List.isEmpty_cons, Bool.false_eq_true, if_false, List.cons_append] at hspan ⊢
    rw [splitFraction, if_pos (hds c List.mem_cons_self), hspan]

omit h in
/-- Behind the whole part there is no digit. -/
theorem noDigit_parts : NoDigit (p.fractionPart ++ (p.exponentPart ++ p.rest)) := by
  intro c hc
  unfold NumberParts.fractionPart at hc
  split at hc
  · exact (exponentPart_follows hends hc).1
  · obtain rfl : '.' = c := by simpa using hc
    rfl

omit hends in
/-- A zero at the front stands alone. -/
theorem whole_of_zero {tail rest : List Char} (hzero : p.whole ++ tail = '0' :: rest) : p.whole = ['0'] ∧ tail = rest := by
  obtain ⟨c, ds, hc⟩ := List.exists_cons_of_ne_nil h.nonempty
  have halone := h.zero
  rw [hc, List.cons_append, List.cons.injEq] at hzero
  obtain ⟨rfl, hrest⟩ := hzero
  rw [hc] at halone ⊢
  obtain ⟨-, rfl⟩ := List.cons.inj (halone rfl)
  exact ⟨rfl, hrest⟩

/-- The parts of a number are found in its text. -/
theorem splitNumber?_text : splitNumber? (p.text ++ p.rest) = some p := by
  have hempty : p.whole.isEmpty = false := List.isEmpty_eq_false_iff.mpr h.nonempty
  have hrest := splitFraction_part h hends
  unfold splitNumber? NumberParts.text
  rw [List.append_assoc, List.append_assoc]
  dsimp only
  split
  · rename_i rest hzero
    obtain ⟨hwhole, rfl⟩ := whole_of_zero h hzero
    simp only [hrest, splitExponent_part h hends, ← hwhole, hempty]
    rfl
  · rw [spanDigits_append h.whole (noDigit_parts hends)]
    simp only [hempty, hrest, splitExponent_part h hends]
    rfl

end

/-! ## Scalars -/

/-- The sign of a number. -/
def signText (negative : Bool) : List Char := if negative then ['-'] else []

/-- A word that goes on with neither a digit nor a sign behind its own sign does not start a number. -/
theorem afterWord?_of_digit {word : String} {sign negative : Bool} {a c : Char} {as cs : List Char}
    (hword : word.toList = signText sign ++ a :: as) (ha : a.isDigit = false ∧ a ≠ '-') (hc : c.isDigit = true) :
    afterWord? word (signText negative ++ c :: cs) = none := by
  have hdigit : ∀ d : Char, d.isDigit = false → d ≠ c := by
    intro d hd heq
    rw [heq, hc] at hd
    nomatch hd
  have hnot : word.toList.isPrefixOf (signText negative ++ c :: cs) = false := by
    rw [hword]
    cases sign <;> cases negative <;> simp [signText, List.isPrefixOf, ha.2, hdigit a ha.1, hdigit '-' rfl]
  rw [afterWord?, hnot]
  rfl

/-- A number starts like none of the words that are values. -/
theorem words_of_digit (negative : Bool) {c : Char} (hc : c.isDigit = true) (cs : List Char) :
    words.findSome? (fun (word, v) => (afterWord? word (signText negative ++ c :: cs)).map fun rest => (v, rest)) = none := by
  have hwords : ∀ entry ∈ words, ∃ sign a as, entry.1.toList = signText sign ++ a :: as ∧ a.isDigit = false ∧ a ≠ '-' := by
    simp only [words, List.forall_mem_cons]
    exact ⟨⟨false, _, _, rfl, by decide⟩, ⟨false, _, _, rfl, by decide⟩, ⟨false, _, _, rfl, by decide⟩,
      ⟨false, _, _, rfl, by decide⟩, ⟨false, _, _, rfl, by decide⟩, ⟨true, _, _, rfl, by decide⟩, nofun⟩
  rw [List.findSome?_eq_none_iff]
  intro entry hentry
  obtain ⟨sign, a, as, hword, ha⟩ := hwords entry hentry
  exact Option.map_eq_none_iff.mpr (afterWord?_of_digit hword ha hc)

/-- What opens no text, list or object is read as a scalar. -/
theorem readValue_scalar {c : Char} {cs : List Char} (h : c ≠ '"' ∧ c ≠ '[' ∧ c ≠ '\x7b') (fuel room : Nat) :
    readValue (fuel + 1) room (c :: cs) = readScalar (c :: cs) := by
  obtain ⟨hquote, hlist, hobject⟩ := h
  unfold readValue
  split
  · rename_i heq
    exact absurd (List.cons.inj heq).1 hquote
  · rename_i heq
    exact absurd (List.cons.inj heq).1 hlist
  · rename_i heq
    exact absurd (List.cons.inj heq).1 hobject
  · rfl

/-- A digit is no sign, no bracket, no quote and no white space, and it is printable. -/
theorem digit_facts {c : Char} (h : c.isDigit = true) :
    isSpace c = false ∧ c ≠ '-' ∧ c ≠ ']' ∧ c ≠ '\x7d' ∧ c ≠ '"' ∧ c ≠ '[' ∧ c ≠ '\x7b' ∧ Printable c := by
  have hne : ∀ d : Char, d.isDigit = false → c ≠ d := by
    intro d hd heq
    rw [← heq, h] at hd
    nomatch hd
  refine ⟨?_, hne _ rfl, hne _ rfl, hne _ rfl, hne _ rfl, hne _ rfl, hne _ rfl, ?_⟩
  · simp [isSpace, hne ' ' rfl, hne '\t' rfl, hne '\n' rfl, hne '\r' rfl]
  · rw [Char.isDigit_iff_toNat] at h
    have hzero : '0'.toNat = 48 := rfl
    have hnine : '9'.toNat = 57 := rfl
    unfold Printable
    omega

section

variable {p : NumberParts} (h : p.Valid)
include h

/-- A number starts with a digit. -/
theorem NumberParts.Valid.starts : ∃ c cs, p.text = c :: cs ∧ c.isDigit = true := by
  obtain ⟨c, cs, hc⟩ := List.exists_cons_of_ne_nil h.nonempty
  refine ⟨c, cs ++ (p.fractionPart ++ p.exponentPart), by rw [NumberParts.text, hc, List.cons_append], ?_⟩
  exact h.whole c (by rw [hc]; exact List.mem_cons_self)

/-- A number is printable. -/
theorem printable_text : ∀ c ∈ p.text, Printable c := by
  have hdigits : ∀ {ds : List Char}, (∀ c ∈ ds, c.isDigit = true) → ∀ c ∈ ds, Printable c :=
    fun hds c hc => (digit_facts (hds c hc)).2.2.2.2.2.2.2
  simp only [NumberParts.text, List.forall_mem_append]
  refine ⟨hdigits h.whole, ?_, ?_⟩
  · unfold NumberParts.fractionPart
    split
    · exact nofun
    · exact List.forall_mem_cons.mpr ⟨by decide, hdigits h.fraction⟩
  · unfold NumberParts.exponentPart
    split
    · rename_i negative ds hexponent
      refine List.forall_mem_cons.mpr ⟨by decide, List.forall_mem_cons.mpr ⟨?_, hdigits (h.exponent _ _ hexponent).2⟩⟩
      cases negative <;> decide
    · exact nofun

/-- A number is read as the value of its parts. -/
theorem readScalar_number (hends : Ends p.rest) {negative : Bool} {v : Value} (hv : numberValue negative p = .ok v) :
    readScalar (signText negative ++ (p.text ++ p.rest)) = .ok (v, p.rest) := by
  have hparts := splitNumber?_text h hends
  obtain ⟨c, cs, htext, hc⟩ := h.starts
  rw [htext, List.cons_append] at hparts ⊢
  have hwords := words_of_digit negative hc (cs ++ p.rest)
  unfold readScalar
  rw [hwords]
  cases negative with
  | true => simp only [signText, if_true, List.singleton_append, hparts, hv]
  | false =>
    have hminus := (digit_facts hc).2.1
    simp [signText, hminus, hparts, hv]

/-- The text of a number with its sign reads as the value of its parts. -/
theorem readsAs_number (style : Style) {negative : Bool} {v : Value} (hv : numberValue negative p = .ok v) :
    ReadsAs style 0 (signText negative ++ p.text) v := by
  obtain ⟨c, cs, htext, hc⟩ := h.starts
  obtain ⟨hspace, hminus, hlist, hobject, hopening, -⟩ := digit_facts hc
  -- The first character is the sign or the first digit.
  obtain ⟨d, ds, hsigned, hd⟩ : ∃ d ds, signText negative ++ p.text = d :: ds ∧ isSpace d = false ∧ d ≠ ']' ∧ d ≠ '\x7d' ∧
      d ≠ '"' ∧ d ≠ '[' ∧ d ≠ '\x7b' := by
    cases negative with
    | true => exact ⟨'-', p.text, rfl, by decide⟩
    | false => exact ⟨c, cs, htext, hspace, hlist, hobject, by have := digit_facts hc; tauto⟩
  refine .of_succ ⟨d, ds, hsigned, hd.1, hd.2.1, hd.2.2.1⟩ ?_ ?_
  · refine List.forall_mem_append.mpr ⟨?_, fun c hc => .inl (printable_text h c hc)⟩
    cases negative
    · exact nofun
    · exact List.forall_mem_singleton.mpr (.inl (by decide))
  · intro fuel room rest _ _ hends
    have hvalid : NumberParts.Valid { p with rest } := ⟨h.nonempty, h.whole, h.zero, h.fraction, h.exponent⟩
    have hread := readScalar_number hvalid hends hv
    rw [← List.append_assoc] at hread
    change readScalar (signText negative ++ p.text ++ rest) = .ok (v, rest) at hread
    rw [hsigned, List.cons_append] at hread ⊢
    rw [readValue_scalar hd.2.2.2, hread]

end

/-- The words that are values read as these. -/
theorem readsAs_word (style : Style) {word : String} {v : Value} (h : (word, v) ∈ words) : ReadsAs style 0 word.toList v := by
  simp only [words, List.mem_cons, List.not_mem_nil, or_false, Prod.mk.injEq] at h
  have hchars : ∀ {cs : List Char}, (∀ c ∈ cs, Printable c) → ∀ c ∈ cs, style.Has c := fun hcs c hc => .inl (hcs c hc)
  rcases h with ⟨rfl, rfl⟩ | ⟨rfl, rfl⟩ | ⟨rfl, rfl⟩ | ⟨rfl, rfl⟩ | ⟨rfl, rfl⟩ | ⟨rfl, rfl⟩ <;>
    exact .of_succ ⟨_, _, rfl, by decide⟩ (hchars (by simp [Printable])) fun _ _ _ _ _ _ => rfl

/-! ## Whole numbers -/

/-- The digits of a number are valid parts. -/
theorem valid_toDigits (n : Nat) (rest : List Char) : NumberParts.Valid ⟨Nat.toDigits 10 n, [], none, rest⟩ where
  nonempty := Nat.toDigits_ne_nil
  whole := isDigit_toDigits n
  zero := by
    intro hzero
    rw [eq_zero_of_head_toDigits hzero]
    rfl
  fraction := nofun
  exponent := nofun

/-- A number is written as its sign and its digits. -/
theorem toList_decimalInt (n : Int) : (decimalInt n).toList = signText (decide (n < 0)) ++ Nat.toDigits 10 n.natAbs := by
  unfold decimalInt decimalNat signText
  by_cases h : n < 0 <;> simp [h]

/-- The decimal text of a whole number that can be read reads as the number. -/
theorem readsAs_int (style : Style) {n : Int} (h : n.natAbs < 10 ^ maxDecimalDigits) :
    ReadsAs style 0 (decimalInt n).toList (.int n) := by
  have hlength : (Nat.toDigits 10 n.natAbs).length ≤ maxDecimalDigits :=
    (Nat.length_toDigits_le_iff (by decide) (by decide)).mpr h
  have hvalue : numberValue (decide (n < 0)) ⟨Nat.toDigits 10 n.natAbs, [], none, []⟩ = .ok (.int n) := by
    unfold numberValue
    simp only [List.isEmpty_nil, Option.isNone_none, Bool.and_self, if_true, Nat.not_lt.mpr hlength, if_false,
      digitsValue_toDigits, decide_eq_true_eq]
    congr 2
    split <;> omega
  have hreads := readsAs_number (valid_toDigits n.natAbs []) style hvalue
  rw [toList_decimalInt]
  simpa [NumberParts.text, NumberParts.fractionPart, NumberParts.exponentPart] using hreads

/-! ## Doubles -/

/-- The power of ten that a number's digits are multiples of. -/
def NumberParts.scale (p : NumberParts) : Int :=
  (match p.exponent with
    | some (true, ds) => -(Double.digitsValue ds : Int)
    | some (false, ds) => Double.digitsValue ds
    | none => 0) - p.fraction.length

/-- Parts that spell a decimal, with a point or an exponent. -/
structure NumberParts.Spells (p : NumberParts) (d : Decimal) : Prop extends p.Valid where
  real : (p.fraction.isEmpty && p.exponent.isNone) = false
  value : (Double.digitsValue (p.whole ++ p.fraction) : ℚ) * 10 ^ p.scale = d.digits * 10 ^ d.exponent

/-- Parts with a fraction or an exponent make a double. -/
theorem numberValue_real {p : NumberParts} (h : (p.fraction.isEmpty && p.exponent.isNone) = false) (negative : Bool) :
    numberValue negative p = .ok (.real (Double.ofDecimal negative (Double.digitsValue (p.whole ++ p.fraction)) p.scale)) :=
  if_neg (by rw [h]; exact Bool.false_ne_true)

/-- A decimal that rounds to a double is read as it. -/
theorem numberValue_of_spells {p : NumberParts} {d : Decimal} (h : p.Spells d) {m : Nat} {q : Int} (hpos : Double.Positive m q)
    (hd : Double.RoundsTo m q (d.digits * 10 ^ d.exponent)) (negative : Bool) :
    numberValue negative p = .ok (.real (Double.ofParts negative ((q + 1074).toNat * 2 ^ 52 + m))) := by
  rw [← h.value] at hd
  rw [numberValue_real h.real, Double.ofDecimal_of_roundsTo negative hpos hd]

/-- Zeros are digits. -/
theorem isDigit_zeros (n : Nat) : ∀ c ∈ List.replicate n '0', c.isDigit = true := fun c hc => by
  rw [List.eq_of_mem_replicate hc]
  rfl

/-- Digits around a point spell the decimal with the digits in a row and an exponent that counts those behind the point. -/
theorem spells_point {d : Decimal} {whole fraction : List Char} (hne : whole ≠ []) (hwhole : ∀ c ∈ whole, c.isDigit = true)
    (hzero : whole.head? = some '0' → whole = ['0']) (hsome : fraction ≠ []) (hfraction : ∀ c ∈ fraction, c.isDigit = true)
    (hvalue : (Double.digitsValue (whole ++ fraction) : ℚ) * 10 ^ (-(fraction.length : Int)) = d.digits * 10 ^ d.exponent) :
    ∃ p : NumberParts, p.Spells d ∧ whole ++ '.' :: fraction = p.text := by
  have hempty : fraction.isEmpty = false := List.isEmpty_eq_false_iff.mpr hsome
  refine ⟨⟨whole, fraction, none, []⟩, ⟨⟨hne, hwhole, hzero, hfraction, nofun⟩, by simp [hempty], ?_⟩, ?_⟩
  · simpa [NumberParts.scale] using hvalue
  · simp [NumberParts.text, NumberParts.fractionPart, NumberParts.exponentPart, hempty]

section

variable {d : Decimal} (h : d.digits ≠ 0)
include h

/-- The digits with the point in front of them, among them or behind them spell the decimal. -/
theorem spells_positional : ∃ p : NumberParts, p.Spells d ∧
    (positional (Nat.toDigits 10 d.digits) (d.exponent + (Nat.toDigits 10 d.digits).length - 1)).toList = p.text := by
  have hdigits := isDigit_toDigits d.digits
  have hvalue := digitsValue_toDigits d.digits
  have hhead : (Nat.toDigits 10 d.digits).head? ≠ some '0' := fun hzero => h (eq_zero_of_head_toDigits hzero)
  have hne : Nat.toDigits 10 d.digits ≠ [] := Nat.toDigits_ne_nil
  generalize Nat.toDigits 10 d.digits = ds at *
  have hpos : 0 < ds.length := List.length_pos_of_ne_nil hne
  generalize he : d.exponent + ds.length - 1 = e
  simp only [positional, String.toList_ofList]
  by_cases hneg : e < 0
  · have hsome : List.replicate (-e - 1).toNat '0' ++ ds ≠ [] := List.append_ne_nil_of_right_ne_nil _ hne
    have hlength : -(((List.replicate (-e - 1).toNat '0' ++ ds).length : Nat) : Int) = d.exponent := by
      rw [List.length_append, List.length_replicate]
      omega
    rw [if_pos hneg, if_pos hneg, if_neg (by simpa using hsome)]
    refine spells_point (by decide) (isDigit_zeros 1) (fun _ => rfl) hsome
      (List.forall_mem_append.mpr ⟨isDigit_zeros _, hdigits⟩) ?_
    rw [hlength, digitsValue_append, digitsValue_append, digitsValue_zeros, hvalue]
    simp [Double.digitsValue]
  · rw [if_neg hneg, if_neg hneg]
    by_cases hshort : (e + 1).toNat < ds.length
    · have hsome : ds.drop (e + 1).toNat ≠ [] := by simpa using hshort
      have hwhole : (ds ++ List.replicate (e + 1 - ds.length).toNat '0').take (e + 1).toNat = ds.take (e + 1).toNat :=
        List.take_append_of_le_length hshort.le
      have hlength : -((ds.drop (e + 1).toNat).length : Int) = d.exponent := by
        rw [List.length_drop]
        omega
      have hfirst : (ds.take (e + 1).toNat).head? = ds.head? := by
        rw [List.head?_take, if_neg (by omega)]
      rw [if_neg (by simpa using hshort), hwhole]
      refine spells_point ?_ (fun c hc => hdigits c (List.mem_of_mem_take hc)) (fun hzero => ?_) hsome
        (fun c hc => hdigits c (List.mem_of_mem_drop hc)) ?_
      · simp [hne]
        omega
      · exact absurd (hfirst ▸ hzero) hhead
      · rw [hlength, List.take_append_drop, hvalue]
    · have hwhole : (ds ++ List.replicate (e + 1 - ds.length).toNat '0').take (e + 1).toNat =
          ds ++ List.replicate (e + 1 - ds.length).toNat '0' := by
        refine List.take_of_length_le ?_
        rw [List.length_append, List.length_replicate]
        omega
      have hexponent : d.exponent = ((e + 1 - ds.length).toNat : Int) := by omega
      rw [if_pos (by simp; omega), hwhole]
      refine spells_point (List.append_ne_nil_of_left_ne_nil hne _) (List.forall_mem_append.mpr ⟨hdigits, isDigit_zeros _⟩)
        (fun hzero => ?_) (by decide) (isDigit_zeros 1) ?_
      · rw [List.head?_append_of_ne_nil _ hne] at hzero
        exact absurd hzero hhead
      · rw [hexponent, digitsValue_append, digitsValue_append, digitsValue_zeros, hvalue]
        simp [Double.digitsValue]

end

/-- The digits of an exponent, two of them at least. -/
def exponentDigits (e : Int) : List Char :=
  if (Nat.toDigits 10 e.natAbs).length < 2 then '0' :: Nat.toDigits 10 e.natAbs else Nat.toDigits 10 e.natAbs

/-- An exponent is written as its letter, its sign and its digits. -/
theorem toList_exponentText (e : Int) :
    (exponentText e).toList = 'e' :: (if decide (e < 0) then '-' else '+') :: exponentDigits e := by
  unfold exponentText exponentDigits decimalNat
  simp only [String.toList_append, String.length_ofList]
  by_cases hneg : e < 0 <;> by_cases hshort : (Nat.toDigits 10 e.natAbs).length < 2 <;> simp [hneg, hshort]

/-- The digits of an exponent are there, are digits and have its value. -/
theorem exponentDigits_facts (e : Int) : exponentDigits e ≠ [] ∧ (∀ c ∈ exponentDigits e, c.isDigit = true) ∧
    Double.digitsValue (exponentDigits e) = e.natAbs := by
  have hdigits := isDigit_toDigits e.natAbs
  have hvalue := digitsValue_toDigits e.natAbs
  unfold exponentDigits
  split
  · refine ⟨nofun, List.forall_mem_cons.mpr ⟨rfl, hdigits⟩, ?_⟩
    rw [← List.singleton_append, digitsValue_append, hvalue]
    simp [Double.digitsValue]
  · exact ⟨Nat.toDigits_ne_nil, hdigits, hvalue⟩

/-- One digit in front of the point and an exponent spell the decimal. -/
theorem spells_scientific {d : Decimal} {c : Char} {rest : List Char} (hds : Nat.toDigits 10 d.digits = c :: rest) :
    ∃ p : NumberParts, p.Spells d ∧
      c :: ((if rest.isEmpty then [] else '.' :: rest) ++ (exponentText (d.exponent + rest.length)).toList) = p.text := by
  obtain ⟨hne, hexponent, hvalue⟩ := exponentDigits_facts (d.exponent + rest.length)
  have hdigits := isDigit_toDigits d.digits
  have hsum := digitsValue_toDigits d.digits
  rw [hds] at hdigits hsum
  obtain ⟨hc, hrest⟩ := List.forall_mem_cons.mp hdigits
  refine ⟨⟨[c], rest, some (decide (d.exponent + rest.length < 0), exponentDigits (d.exponent + rest.length)), []⟩,
    ⟨⟨nofun, by simpa using hc, ?_, hrest, ?_⟩, by simp, ?_⟩, ?_⟩
  · intro hzero
    obtain rfl : c = '0' := by simpa using hzero
    rfl
  · intro negative ds heq
    obtain ⟨-, rfl⟩ := Prod.mk.inj (Option.some.inj heq)
    exact ⟨hne, hexponent⟩
  · have hscale : NumberParts.scale
        ⟨[c], rest, some (decide (d.exponent + rest.length < 0), exponentDigits (d.exponent + rest.length)), []⟩ =
          d.exponent := by
      unfold NumberParts.scale
      by_cases hneg : d.exponent + rest.length < 0
      · simp only [hneg, decide_true, hvalue]
        omega
      · simp only [hneg, decide_false, hvalue]
        omega
    rw [hscale, List.singleton_append, hsum]
  · rw [toList_exponentText]
    rfl

/-- The text of a positive double spells its shortest decimal. -/
theorem spells_positiveText {m : Nat} {q : Int} (h : Double.Positive m q) :
    ∃ p : NumberParts, p.Spells (Decimal.shortest m q) ∧ (positiveText m q).toList = p.text := by
  have hne : (Decimal.shortest m q).digits ≠ 0 := by
    intro hzero
    have hpos := (Decimal.roundsTo_shortest h).pos h
    rw [hzero] at hpos
    simp at hpos
  unfold positiveText Decimal.scientific
  dsimp only
  split
  · exact spells_positional hne
  · obtain ⟨c, rest, hds⟩ := List.exists_cons_of_ne_nil (Nat.toDigits_ne_nil : Nat.toDigits 10 (Decimal.shortest m q).digits ≠ [])
    obtain ⟨p, hp, htext⟩ := spells_scientific hds
    refine ⟨p, hp, ?_⟩
    have hexponent : (Decimal.shortest m q).exponent + ((c :: rest).length : Nat) - 1 =
        (Decimal.shortest m q).exponent + rest.length := by
      rw [List.length_cons]
      omega
    rw [← htext, hds, hexponent]
    cases rest <;> simp

/-- A double as it is read back: itself, or the quiet one if it is not a number. -/
def readBackDouble (x : Double) : Double := if x.magnitude = .notANumber then .notANumber else x

/-- The text of a finite double with its sign is read as the double. -/
theorem readsAs_finite (style : Style) {x : Double} {negative : Bool} {m : Nat} {q : Int}
    (h : x.magnitude = .finite negative m q) :
    ReadsAs style 0 (signText x.isNegative ++ (if m == 0 then "0.0" else positiveText m q).toList) (.real x) := by
  obtain ⟨hparts, hm⟩ := Double.finite_of_magnitude h
  rcases hm with ⟨rfl, rfl⟩ | hpos
  · have hvalid : NumberParts.Valid ⟨['0'], ['0'], none, []⟩ :=
      ⟨nofun, isDigit_zeros 1, fun _ => rfl, isDigit_zeros 1, nofun⟩
    have hvalue : numberValue x.isNegative ⟨['0'], ['0'], none, []⟩ = .ok (.real (.ofParts x.isNegative 0)) := rfl
    rw [show Double.ofParts x.isNegative 0 = x from hparts] at hvalue
    exact readsAs_number hvalid style hvalue
  · obtain ⟨p, hp, htext⟩ := spells_positiveText hpos
    have hvalue := numberValue_of_spells hp hpos (Decimal.roundsTo_shortest hpos) x.isNegative
    rw [hparts] at hvalue
    rw [if_neg (by simp [hpos.pos.ne']), htext]
    exact readsAs_number hp.toValid style hvalue

/-- A double that is written is read back. -/
theorem readsAs_double (style : Style) (x : Double) : ReadsAs style 0 (doubleText x).toList (.real (readBackDouble x)) := by
  unfold doubleText Double.textWith readBackDouble
  cases hx : x.magnitude with
  | notANumber => exact readsAs_word style (by simp [words])
  | infinite negative =>
    have hinfinity := Double.infinity_of_magnitude hx
    have hword : ((if x.isNegative then "-" else "") ++ "Infinity", Value.real (.infinity x.isNegative)) ∈ words := by
      cases x.isNegative <;> simp [words]
    rw [hinfinity] at hword
    exact readsAs_word style hword
  | finite negative m q =>
    have hsign : (if x.isNegative then "-" else "").toList = signText x.isNegative := by cases x.isNegative <;> rfl
    have hreads := readsAs_finite style hx
    rw [← hsign, ← String.toList_append] at hreads
    exact hreads

end Json

end WordSlot
