import WordSlot.Proofs.Numerals
import WordSlot.Proofs.Signatures

/-!
# The spelling of a type does not matter

A signature is made of the names that types have and not of the words a manifest uses for them. Which words name a type is said
here apart from the reader of type names: the word in any case, the digits of any script, blanks around them. An entry whose input
types are spelt in other ways declares the same method, so its signature and its selector are the same, whether the signature is
taken from the method or read off the entry.
-/

namespace WordSlot

open Outcome

/-! ## Small letters -/

namespace Text

/-- Lowering a character is lowering its code point. -/
theorem toNat_toLower (c : Char) : c.toLower.toNat = lowerCode c.toNat := by
  have hval : c.val.toNat = c.toNat := rfl
  unfold Char.toLower lowerCode
  by_cases h : 0x41 ≤ c.toNat ∧ c.toNat ≤ 0x5a
  · have hcapital : c.val ≥ 'A'.val ∧ c.val ≤ 'Z'.val := by
      simp only [ge_iff_le, UInt32.le_iff_toNat_le, hval]
      exact h
    rw [dif_pos hcapital, if_pos (by simp [h])]
    change (c.val + ('a'.val - 'A'.val)).toNat = _
    rw [UInt32.toNat_add, hval]
    have hstep : ('a'.val - 'A'.val).toNat = 0x20 := rfl
    omega
  · have hother : ¬ (c.val ≥ 'A'.val ∧ c.val ≤ 'Z'.val) := by
      simp only [ge_iff_le, UInt32.le_iff_toNat_le, hval]
      exact h
    rw [dif_neg hother, if_neg (by simpa using h)]

/-- A code point that becomes a character by making it small is a character. -/
theorem exists_toLower {code : Nat} {c : Char} (h : lowerCode code = c.toNat) : ∃ d : Char, d.toNat = code ∧ d.toLower = c := by
  have hscalar : Utf8.IsScalar code := by
    have hc := Utf8.isScalar_toNat c
    rw [← h] at hc
    unfold lowerCode at hc
    split at hc
    · rename_i hcapital
      simp only [Bool.and_eq_true, decide_eq_true_eq] at hcapital
      exact .inl (by omega)
    · exact hc
  refine ⟨Char.ofNat code, Utf8.toNat_ofNat hscalar, Char.toNat_inj.mp ?_⟩
  rw [toNat_toLower, Utf8.toNat_ofNat hscalar, h]

/-- Making a text small gives characters exactly if it is characters, each of which is made small. -/
theorem asciiLower_eq_ofChars_iff {t : Text} {cs : List Char} :
    t.asciiLower = ofChars cs ↔ ∃ ds, t = ofChars ds ∧ ds.map Char.toLower = cs := by
  obtain ⟨codes⟩ := t
  simp only [asciiLower, ofChars, Text.mk.injEq]
  constructor
  · intro h
    induction codes generalizing cs with
    | nil =>
      obtain rfl : cs = [] := by simpa using h.symm
      exact ⟨[], rfl, rfl⟩
    | cons code codes ih =>
      cases cs with
      | nil => simp at h
      | cons c cs =>
        obtain ⟨hc, hcs⟩ := List.cons.inj h
        obtain ⟨d, rfl, rfl⟩ := exists_toLower hc
        obtain ⟨ds, rfl, rfl⟩ := ih hcs
        exact ⟨d :: ds, rfl, rfl⟩
  · intro h
    obtain ⟨ds, rfl, rfl⟩ := h
    simp [toNat_toLower]

end Text

/-! ## The words for a type -/

/-- Digits of any script say a width, three of them at most; none say the widest. -/
def IsWidth (digits : List Char) (bits : Nat) : Prop :=
  digits = [] ∧ bits = 256 ∨
    digits ≠ [] ∧ digits.length ≤ 3 ∧
      ∃ ds, List.Forall₂ (fun c d => digitValue? c = some d) digits ds ∧ Numeral.ofDigits 10 ds = bits

/-- A text spells a width: the word in any case and the digits of the width, with blanks around them. -/
def SpellsWidth (spec : Text) (bits : Nat) : Prop :=
  ∃ front word digits back, spec = Text.ofChars (front ++ (word ++ digits) ++ back) ∧
    word.map Char.toLower = ['u', 'i', 'n', 't'] ∧ IsWidth digits bits ∧
    (∀ c ∈ front, isBlank c.toNat = true) ∧ ∀ c ∈ back, isBlank c.toNat = true

/-- The digits of a width are read one for one. -/
theorem widthDigits?_eq_some_iff {cs : List Char} {ds : List Nat} :
    widthDigits? cs = some ds ↔ List.Forall₂ (fun c d => digitValue? c = some d) cs ds := by
  unfold widthDigits?
  induction cs generalizing ds with
  | nil => simp [eq_comm]
  | cons c cs ih =>
    simp only [List.mapM_cons, Option.bind_eq_bind, Option.bind_eq_some_iff, ih, Option.pure_def, Option.some.injEq,
      List.forall₂_cons_left_iff]
    constructor
    · intro h
      obtain ⟨d, hd, ds, hds, rfl⟩ := h
      exact ⟨d, ds, hd, hds, rfl⟩
    · intro h
      obtain ⟨d, ds, hd, hds, rfl⟩ := h
      exact ⟨d, hd, ds, hds, rfl⟩

/-- A digit is no Latin letter and no blank. -/
theorem digitValue?_apart {c : Char} {d : Nat} (h : digitValue? c = some d) :
    ¬ (0x41 ≤ c.toNat ∧ c.toNat ≤ 0x5a) ∧ ¬ (0x61 ≤ c.toNat ∧ c.toNat ≤ 0x7a) ∧ isBlank c.toNat = false := by
  have htable : ∀ z ∈ zeroDigits, ∀ k < 10, ¬ (0x41 ≤ z + k ∧ z + k ≤ 0x5a) ∧
      ¬ (0x61 ≤ z + k ∧ z + k ≤ 0x7a) ∧ isBlank (z + k) = false := by decide +kernel
  obtain ⟨z, hfind, -⟩ := Option.map_eq_some_iff.mp h
  have hrange := List.find?_some hfind
  simp only [Bool.and_eq_true, decide_eq_true_eq] at hrange
  have happart := htable z (List.mem_of_find?_eq_some hfind) (c.toNat - z) (by omega)
  rwa [Nat.add_sub_cancel' hrange.1] at happart

/-- Making a digit small leaves it as it is, and nothing else becomes a digit. -/
theorem digitValue?_toLower {c : Char} {d : Nat} (h : digitValue? c.toLower = some d ∨ digitValue? c = some d) :
    c.toLower = c := by
  refine Char.toNat_inj.mp ?_
  rw [Text.toNat_toLower]
  unfold Text.lowerCode
  split
  · rename_i hcapital
    simp only [Bool.and_eq_true, decide_eq_true_eq] at hcapital
    rcases h with h | h
    · have hsmall := (digitValue?_apart h).2.1
      rw [Text.toNat_toLower, Text.lowerCode, if_pos (by simp [hcapital])] at hsmall
      omega
    · exact absurd hcapital (digitValue?_apart h).1
  · rfl

/-- The letters of the word are no blanks. -/
theorem not_blank_of_toLower {c : Char} (h : c.toLower ∈ ['u', 'i', 'n', 't']) : isBlank c.toNat = false := by
  have hrange : 0x41 ≤ c.toNat ∧ c.toNat ≤ 0x7a := by
    have hsmall : 0x61 ≤ c.toLower.toNat ∧ c.toLower.toNat ≤ 0x7a := by
      simp only [List.mem_cons, List.not_mem_nil, or_false] at h
      rcases h with h | h | h | h <;> rw [h] <;> decide
    rw [Text.toNat_toLower, Text.lowerCode] at hsmall
    split at hsmall
    · rename_i hcapital
      simp only [Bool.and_eq_true, decide_eq_true_eq] at hcapital
      omega
    · omega
  simp only [isBlank, Bool.or_eq_false_iff, Bool.and_eq_false_iff, decide_eq_false_iff_not, beq_eq_false_iff_ne]
  omega

/-- Blanks are characters. -/
theorem exists_chars_of_blank {codes : List Nat} (h : ∀ code ∈ codes, isBlank code = true) :
    ∃ cs : List Char, codes = cs.map Char.toNat := by
  refine ⟨codes.map Char.ofNat, ?_⟩
  rw [List.map_map]
  refine (List.map_id codes).symm.trans (List.map_congr_left fun code hcode => ?_)
  have hblank := h code hcode
  simp only [isBlank, Bool.or_eq_true, Bool.and_eq_true, decide_eq_true_eq, beq_iff_eq] at hblank
  have hscalar : Utf8.IsScalar code := .inl (by omega)
  exact (Utf8.toNat_ofNat hscalar).symm

/-- A width is made of digits. -/
theorem IsWidth.digit {digits : List Char} {bits : Nat} (h : IsWidth digits bits) {c : Char} (hc : c ∈ digits) :
    ∃ d, digitValue? c = some d := by
  rcases h with ⟨rfl, -⟩ | ⟨-, -, ds, hds, -⟩
  · nomatch hc
  · induction hds with
    | nil => nomatch hc
    | cons hd _ ih =>
      rcases List.mem_cons.mp hc with rfl | hc
      · exact ⟨_, hd⟩
      · exact ih hc

/-- The reader of type names takes exactly the texts that spell a width. -/
theorem spelledWidth?_eq_some_iff {spec : Text} {bits : Nat} : spelledWidth? spec = some bits ↔ SpellsWidth spec bits := by
  unfold spelledWidth?
  constructor
  · intro h
    split at h
    · rename_i rest hchars
      obtain ⟨cs, hstrip, hcs⟩ := Text.asciiLower_eq_ofChars_iff.mp (Text.chars?_eq_some_iff.mp hchars)
      have hlower : cs.map Char.toLower = ['u', 'i', 'n', 't'] ++ rest := hcs
      obtain ⟨word, digits, rfl, hword, rfl⟩ := List.map_eq_append_iff.mp hlower
      obtain ⟨front, back, hspec, hfront, hback⟩ := exists_trimBoth isBlank spec.codes
      obtain ⟨front, rfl⟩ := exists_chars_of_blank hfront
      obtain ⟨back, rfl⟩ := exists_chars_of_blank hback
      have hcodes : spec = Text.ofChars (front ++ (word ++ digits) ++ back) := by
        refine Text.codes_inj.mp (hspec.trans ?_)
        have hbody : trimBoth isBlank spec.codes = (word ++ digits).map Char.toNat := congrArg Text.codes hstrip
        rw [hbody]
        simp [Text.ofChars]
      refine ⟨front, word, digits, back, hcodes, hword, ?_, List.forall_mem_map.mp hfront, List.forall_mem_map.mp hback⟩
      split at h
      · rename_i hempty
        refine .inl ⟨by simpa using hempty, ?_⟩
        exact (Option.some.inj h).symm
      · rename_i hsome
        split at h
        · cases h
        · rename_i hlength
          obtain ⟨ds, hds, rfl⟩ := Option.map_eq_some_iff.mp h
          rw [widthDigits?_eq_some_iff, List.forall₂_map_left_iff] at hds
          refine .inr ⟨by simpa using hsome, by simpa using hlength, ds, hds.imp fun c d hd => ?_, rfl⟩
          rwa [digitValue?_toLower (.inl hd)] at hd
    · cases h
  · intro h
    obtain ⟨front, word, digits, back, rfl, hword, hwidth, hfront, hback⟩ := h
    have hsmall : digits.map Char.toLower = digits := by
      refine (List.map_congr_left fun c hc => ?_).trans (List.map_id digits)
      obtain ⟨d, hd⟩ := hwidth.digit hc
      exact digitValue?_toLower (.inr hd)
    have hbody : ∀ c ∈ word ++ digits, isBlank c.toNat = false := by
      intro c hc
      rcases List.mem_append.mp hc with hc | hc
      · refine not_blank_of_toLower ?_
        rw [← hword]
        exact List.mem_map_of_mem hc
      · obtain ⟨d, hd⟩ := hwidth.digit hc
        exact (digitValue?_apart hd).2.2
    have hstrip : (Text.ofChars (front ++ (word ++ digits) ++ back)).strip = Text.ofChars (word ++ digits) := by
      rw [Text.strip, Text.ofChars, List.map_append, List.map_append, trimBoth_append]
      · rfl
      · exact List.forall_mem_map.mpr hfront
      · exact List.forall_mem_map.mpr hbody
      · exact List.forall_mem_map.mpr hback
    have hchars : (Text.ofChars (front ++ (word ++ digits) ++ back)).strip.asciiLower.chars? =
        some ('u' :: 'i' :: 'n' :: 't' :: digits) := by
      rw [hstrip, Text.chars?_eq_some_iff, Text.asciiLower_eq_ofChars_iff]
      refine ⟨word ++ digits, rfl, ?_⟩
      rw [List.map_append, hword, hsmall]
      rfl
    rw [hchars]
    rcases hwidth with ⟨rfl, rfl⟩ | ⟨hne, hlength, ds, hds, rfl⟩
    · rfl
    · have hread : widthDigits? digits = some ds := widthDigits?_eq_some_iff.mpr hds
      simp [hne, Nat.not_lt.mpr hlength, hread]

/-- A number is the width of a type exactly if the type has it. -/
theorem typeOfBits_eq_ok_iff {bits : Int} {t : UIntType} : typeOfBits bits = .ok t ↔ (t.bits : Int) = bits := by
  have hfound : UIntType.ofBits? bits = some t ↔ (t.bits : Int) = bits := by
    unfold UIntType.ofBits?
    constructor
    · intro h
      split at h
      · split at h
        · rename_i hnat
          cases h
          exact hnat
        · cases h
      · cases h
    · intro h
      subst h
      have hvalid : validWidth ((t.bits : Int).toNat) = true := t.valid
      rw [dif_pos hvalid, if_pos (Int.toNat_natCast _ ▸ rfl)]
      rfl
  unfold typeOfBits
  cases hbits : UIntType.ofBits? bits with
  | some u =>
    rw [hbits, Option.some.injEq] at hfound
    simpa using hfound
  | none =>
    rw [hbits] at hfound
    simp only [bind_eq_ok, throw_eq_error, reduceCtorEq, and_false, exists_false, false_iff]
    intro h
    cases hfound.mpr h

/-- A value names a type exactly if it is the type or a text that spells its width. -/
theorem parseType_eq_ok_iff {v : Value} {t : UIntType} :
    parseType v = .ok t ↔ v = .type t ∨ ∃ spec, v = .text spec ∧ SpellsWidth spec t.bits := by
  cases v with
  | type u => simp [parseType]
  | text spec =>
    simp only [parseType, reduceCtorEq, false_or, Value.text.injEq, exists_eq_left', ← spelledWidth?_eq_some_iff]
    cases hwidth : spelledWidth? spec with
    | none => simp
    | some bits =>
      simp only [typeOfBits_eq_ok_iff, Option.some.injEq, Int.ofNat_inj]
      exact eq_comm
  | _ => simp [parseType]

/-- ASCII digits are digits of a script. -/
theorem digitValue?_of_isDigit {cs : List Char} {ds : List Nat} (h : List.Forall₂ Numeral.IsDigit cs ds)
    (hlt : ∀ d ∈ ds, d < 10) : List.Forall₂ (fun c d => digitValue? c = some d) cs ds := by
  have htable : ∀ d < 10, digitValue? (Nat.digitChar d) = some d ∧ (Nat.digitChar d).toUpper = Nat.digitChar d := by
    decide +kernel
  induction h with
  | nil => exact .nil
  | @cons c d cs ds hc _ ih =>
    obtain ⟨hvalue, hupper⟩ := htable d (hlt d List.mem_cons_self)
    have hdigit : c = Nat.digitChar d := by
      rcases hc with hc | hc
      · exact hc
      · exact hc.trans hupper
    refine .cons ?_ (ih fun e he => hlt e (List.mem_cons_of_mem d he))
    rw [hdigit, hvalue]

/-- The name of a type spells its width. -/
theorem spellsWidth_name (t : UIntType) : SpellsWidth t.name t.bits := by
  have hlength : ∀ bits ≤ 256, (Nat.toDigits 10 bits).length ≤ 3 := by decide +kernel
  obtain ⟨hne, ds, hds, hlt, hvalue⟩ := Numeral.spells_toDigits (by decide : 1 < 10) t.bits
  have hwidth : IsWidth (Nat.toDigits 10 t.bits) t.bits :=
    .inr ⟨hne, hlength _ t.bits_le, ds, digitValue?_of_isDigit hds hlt, by rw [Numeral.ofDigits_eq, hvalue]⟩
  refine ⟨[], ['u', 'i', 'n', 't'], Nat.toDigits 10 t.bits, [], ?_, by decide, hwidth, nofun, nofun⟩
  rw [Text.ofString, UIntType.toList_name, List.nil_append, List.append_nil]

/-! ## Entries of a manifest -/

namespace Value

/-- Only a text is the same as a text. -/
theorem same_text_iff {v : Value} {t : Text} : v.same (.text t) = true ↔ v = .text t := by
  cases v <;> simp [same]

/-- The first entry of a key is found. -/
theorem field?_cons (key : Text) (k v : Value) (entries : List (Value × Value)) :
    field? key ((k, v) :: entries) = if k.same (.text key) then some v else field? key entries := rfl

/-- A field that was put is there, and the others are where they were. -/
theorem field?_insert (key other : Text) (v : Value) (entries : List (Value × Value)) :
    field? other (insert (.text key) v entries) = if other = key then some v else field? other entries := by
  induction entries with
  | nil =>
    rw [insert, field?_cons]
    by_cases hother : other = key
    · simp [hother, same]
    · simp [hother, Ne.symm hother, same]
  | cons e entries ih =>
    obtain ⟨k, w⟩ := e
    rw [insert]
    by_cases hk : k.same (.text key) = true
    · have hkey := same_text_iff.mp hk
      subst hkey
      rw [if_pos hk, field?_cons, field?_cons]
      by_cases hother : other = key
      · simp [hother, hk]
      · have hne : (Value.text key).same (.text other) = false := by simp [same, Ne.symm hother]
        simp [hother, hne]
    · rw [if_neg hk, field?_cons, field?_cons, ih]
      by_cases hother : other = key
      · subst hother
        simp [hk]
      · simp [hother]

end Value

/-- A parameter with its type given in another way. -/
def RespeltParameter (p p' : Value) : Prop :=
  ∃ fields old new t, p = .dict fields ∧ Value.field? "type" fields = some old ∧
    p' = .dict (Value.insert (.text "type") new fields) ∧ parseType old = .ok t ∧ parseType new = .ok t

/-- An entry with its input types given in other ways, any of them. -/
def RespeltEntry (entry entry' : Value) : Prop :=
  ∃ fields inputs inputs' ps ps', entry = .dict fields ∧ Value.field? "inputs" fields = some inputs ∧
    inputs.parts? = some ps ∧ inputs'.parts? = some ps' ∧ List.Forall₂ RespeltParameter ps ps' ∧
    entry' = .dict (Value.insert (.text "inputs") inputs' fields)

/-- A parameter that is spelt otherwise has the same type. -/
theorem RespeltParameter.type_eq {p p' : Value} (h : RespeltParameter p p') : parameterType p' = parameterType p := by
  obtain ⟨fields, old, new, t, rfl, hold, rfl, htype, htype'⟩ := h
  have hnew : Value.field? "type" (Value.insert (.text "type") new fields) = some new := by
    rw [Value.field?_insert, if_pos rfl]
  simp only [parameterType, hold, hnew, htype, htype']

/-- Parameters that are spelt otherwise have the same types. -/
theorem mapM_respelt {ps ps' : List Value} (h : List.Forall₂ RespeltParameter ps ps') :
    ps'.mapM parameterType = ps.mapM parameterType := by
  induction h with
  | nil => rfl
  | cons hp _ ih => rw [List.mapM_cons, List.mapM_cons, hp.type_eq, ih]

/-- What is read off an entry, its inputs apart, does not hang on how they are given, and the inputs read the same. -/
theorem RespeltEntry.parameterTypes_eq {fields : List (Value × Value)} {inputs inputs' : Value} {ps ps' : List Value}
    (hinputs : Value.field? "inputs" fields = some inputs) (hps : inputs.parts? = some ps) (hps' : inputs'.parts? = some ps')
    (h : List.Forall₂ RespeltParameter ps ps') (key : Text) :
    parameterTypes key (Value.insert (.text "inputs") inputs' fields) = parameterTypes key fields := by
  unfold parameterTypes
  rw [Value.field?_insert]
  by_cases hkey : key = "inputs"
  · subst hkey
    simp only [if_true, hinputs, Value.parts, hps, hps', ok_bind]
    exact mapM_respelt h
  · rw [if_neg hkey]

/-- An entry with its input types given in other ways declares the same method. -/
theorem RespeltEntry.ofEntry_eq {entry entry' : Value} (h : RespeltEntry entry entry') :
    Method.ofEntry entry' = Method.ofEntry entry := by
  obtain ⟨fields, inputs, inputs', ps, ps', rfl, hinputs, hps, hps', hall, rfl⟩ := h
  have hname : Value.field? "name" (Value.insert (.text "inputs") inputs' fields) = Value.field? "name" fields := by
    rw [Value.field?_insert, if_neg (by decide)]
  have hword : Value.field? "stateMutability" (Value.insert (.text "inputs") inputs' fields) =
      Value.field? "stateMutability" fields := by
    rw [Value.field?_insert, if_neg (by decide)]
  simp only [Method.ofEntry, hname, hword, parameterTypes_eq hinputs hps hps' hall]

/-- The signature read off an entry is that of the method which the entry declares. -/
theorem canonicalSignature_of_ofEntry {entry : Value} {m : Method} (h : Method.ofEntry entry = .ok m) :
    canonicalSignature entry = .ok m.signature := by
  unfold Method.ofEntry at h
  split at h
  · rename_i fields
    split at h
    · cases h
    · rename_i name hname
      obtain ⟨text, htext, h⟩ := bind_eq_ok.mp h
      obtain ⟨inputs, hinputs, h⟩ := bind_eq_ok.mp h
      obtain ⟨outputs, -, h⟩ := bind_eq_ok.mp h
      have hm : m.name = text ∧ m.inputs = inputs := by
        dsimp only at h
        split at h
        · obtain ⟨word, -, h⟩ := bind_eq_ok.mp h
          cases h
          exact ⟨rfl, rfl⟩
        · cases h
          exact ⟨rfl, rfl⟩
      simp only [canonicalSignature, hinputs, hname, htext, ok_bind, Method.signature, hm]
      rfl
  · cases h

/-- The two ways to a signature agree, and neither hangs on the words for types. What is read off an entry that declares a method
is the signature of that method. An entry in which input types are given in other ways, each naming the same type as before,
declares the very same method, and what is read off it gives the same signature and selector. A type is named by itself and by
exactly the texts that spell its width: the word in any case and at most three digits of any script, none for the widest, with
blanks around them; so the name of a type that was named in whatever way names it again. -/
theorem signatures_told_by_types :
    (∀ (entry : Value) (m : Method), Method.ofEntry entry = .ok m → canonicalSignature entry = .ok m.signature) ∧
    (∀ (entry entry' : Value) (m : Method), Method.ofEntry entry = .ok m → RespeltEntry entry entry' →
      Method.ofEntry entry' = .ok m ∧ canonicalSignature entry' = .ok m.signature ∧
        (canonicalSignature entry' >>= selector) = m.selector) ∧
    (∀ (v : Value) (t : UIntType),
      parseType v = .ok t ↔ v = .type t ∨ ∃ spec, v = .text spec ∧ SpellsWidth spec t.bits) ∧
    (∀ (v : Value) (t : UIntType), parseType v = .ok t → parseType (.text t.name) = .ok t) := by
  refine ⟨fun entry m h => canonicalSignature_of_ofEntry h, ?_, fun v t => parseType_eq_ok_iff, ?_⟩
  · intro entry entry' m h hrespelt
    have hentry' : Method.ofEntry entry' = .ok m := hrespelt.ofEntry_eq.trans h
    have hsignature := canonicalSignature_of_ofEntry hentry'
    exact ⟨hentry', hsignature, by rw [hsignature, ok_bind]; rfl⟩
  · intro v t _
    exact parseType_eq_ok_iff.mpr (.inr ⟨t.name, rfl, spellsWidth_name t⟩)

/-- The law at an entry whose types are a bare word with blanks around it and a capital word with zeros in front of its width,
which give way to digits of another script and to the type itself. -/
theorem signatures_told_by_types_of_entry :
    let byte : UIntType := ⟨8, rfl⟩
    let entry : Value := .record [("name", .text "put"),
      ("inputs", .list [.record [("type", .text " uint\n")], .record [("name", .text "x"), ("type", .text "UINT008")]])]
    let entry' : Value := .record [("name", .text "put"),
      ("inputs", .tuple [.record [("type", .text "Uint٢٥٦")], .record [("name", .text "x"), ("type", .type byte)]])]
    let m : Method := ⟨"put", [.widest, byte], [], "nonpayable"⟩
    Method.ofEntry entry = .ok m ∧ RespeltEntry entry entry' ∧ Method.ofEntry entry' = .ok m ∧
      canonicalSignature entry' = .ok "put(uint256,uint8)" ∧ (canonicalSignature entry' >>= selector) = m.selector ∧
      parseType (.text byte.name) = .ok byte := by
  intro byte entry entry' m
  have hentry : Method.ofEntry entry = .ok m := rfl
  have hscript : parseType (.text "Uint٢٥٦") = .ok .widest := toOption_eq_some.mp (by decide +kernel)
  have hbare : RespeltParameter (.record [("type", .text " uint\n")]) (.record [("type", .text "Uint٢٥٦")]) :=
    ⟨_, _, _, .widest, rfl, rfl, rfl, rfl, hscript⟩
  have hzeros : RespeltParameter (.record [("name", .text "x"), ("type", .text "UINT008")])
      (.record [("name", .text "x"), ("type", .type byte)]) := ⟨_, _, _, byte, rfl, rfl, rfl, rfl, rfl⟩
  have hrespelt : RespeltEntry entry entry' :=
    ⟨_, _, .tuple _, _, _, rfl, rfl, rfl, rfl, .cons hbare (.cons hzeros .nil), rfl⟩
  obtain ⟨-, hentries, -, hnames⟩ := signatures_told_by_types
  obtain ⟨hsame, hsignature, hselector⟩ := hentries entry entry' m hentry hrespelt
  rw [show m.signature = "put(uint256,uint8)" by decide +kernel] at hsignature
  exact ⟨hentry, hrespelt, hsame, hsignature, hselector, hnames (.type byte) byte rfl⟩

end WordSlot
