import WordSlot.Log.Clock
import WordSlot.Proofs.FrameFaults
import WordSlot.Proofs.Rejection

/-!
# Texts that stay on one line

A text stays on one line if it has neither a line feed nor a carriage return. Quoting any text gives one that does, and the
message of a rejected call names what the caller handed in only by its quoted text, by its kind or by a number. So whatever a call
asks for, the reason why it is refused is said on one line.
-/

namespace WordSlot

open Outcome

namespace Text

/-- A text without line feeds and carriage returns. -/
def OneLine (t : Text) : Prop := '\n'.toNat ∉ t.codes ∧ '\r'.toNat ∉ t.codes

instance (t : Text) : Decidable t.OneLine := inferInstanceAs (Decidable (_ ∧ _))

variable {s t : Text}

/-- Texts side by side are one line if both are. -/
@[simp] theorem oneLine_append : (s ++ t).OneLine ↔ s.OneLine ∧ t.OneLine := by
  change _ ∉ s.codes ++ t.codes ∧ _ ∉ s.codes ++ t.codes ↔ _
  simp only [OneLine, List.mem_append]
  tauto

/-- Texts with separators between them are one line if all of them are. -/
theorem oneLine_join {separator : Text} {ts : List Text} (hseparator : separator.OneLine) (h : ∀ t ∈ ts, t.OneLine) :
    (join separator ts).OneLine := by
  have hcode : ∀ code, code ∉ separator.codes → (∀ t ∈ ts, code ∉ t.codes) → code ∉ (join separator ts).codes := by
    intro code hsep hts hmem
    rcases mem_of_mem_intercalate hmem with hmem | ⟨cs, hcs, hmem⟩
    · exact hsep hmem
    · obtain ⟨t, ht, rfl⟩ := List.mem_map.mp hcs
      exact hts t ht hmem
  exact ⟨hcode _ hseparator.1 fun t ht => (h t ht).1, hcode _ hseparator.2 fun t ht => (h t ht).2⟩

/-- A string is one line if none of its characters breaks it. -/
theorem oneLine_ofString_iff {word : String} : (ofString word).OneLine ↔ ∀ c ∈ word.toList, c ≠ '\n' ∧ c ≠ '\r' := by
  have hmem : ∀ d : Char, d.toNat ∈ word.toList.map Char.toNat ↔ d ∈ word.toList := by
    intro d
    rw [List.mem_map]
    constructor
    · rintro ⟨c, hc, htoNat⟩
      rwa [← Char.toNat_inj.mp htoNat]
    · exact fun hd => ⟨d, hd, rfl⟩
  change _ ∉ word.toList.map Char.toNat ∧ _ ∉ word.toList.map Char.toNat ↔ _
  rw [hmem, hmem]
  constructor
  · rintro ⟨hfeed, hreturn⟩ c hc
    exact ⟨fun h => hfeed (h ▸ hc), fun h => hreturn (h ▸ hc)⟩
  · exact fun h => ⟨fun hfeed => (h _ hfeed).1 rfl, fun hreturn => (h _ hreturn).2 rfl⟩

/-- Strings side by side are one line if both are. -/
theorem oneLine_ofString_append {word more : String} :
    (ofString (word ++ more)).OneLine ↔ (ofString word).OneLine ∧ (ofString more).OneLine := by
  simp only [oneLine_ofString_iff, String.toList_append, List.forall_mem_append]

end Text

/-! ## Numbers and quoted text -/

/-- No digit breaks a line. -/
theorem toDigits_noBreak {base : Nat} (hbase : 1 < base) (n : Nat) : ∀ c ∈ Nat.toDigits base n, c ≠ '\n' ∧ c ≠ '\r' := by
  induction n using Nat.strongRecOn with
  | ind n ih =>
    rw [Nat.toDigits_eq_if hbase]
    split
    · simp
    · rename_i hn
      have hsmaller : n / base < n := Nat.div_lt_self (by omega) hbase
      intro c hc
      rcases List.mem_append.mp hc with hc | hc
      · exact ih _ hsmaller c hc
      · simp [List.mem_singleton.mp hc]

/-- A number in decimal is one line. -/
theorem oneLine_decimalNat (n : Nat) : (Text.ofString (decimalNat n)).OneLine := by
  rw [Text.oneLine_ofString_iff, decimalNat, String.toList_ofList]
  exact toDigits_noBreak (by decide) n

/-- With a sign too. -/
theorem oneLine_decimalInt (n : Int) : (Text.ofString (decimalInt n)).OneLine := by
  unfold decimalInt
  split
  · exact Text.oneLine_ofString_append.mpr ⟨by decide, oneLine_decimalNat _⟩
  · exact oneLine_decimalNat _

namespace Quoted

/-- A character breaks a line only by its code point. -/
theorem ofNat_noBreak {code : Nat} (h : code ≠ 0x0a ∧ code ≠ 0x0d) : Char.ofNat code ≠ '\n' ∧ Char.ofNat code ≠ '\r' := by
  have htoNat : (Char.ofNat code).toNat = code ∨ (Char.ofNat code).toNat = 0 := by
    by_cases hvalid : code.isValidChar
    · exact .inl (by rw [Char.ofNat, dif_pos hvalid]; rfl)
    · exact .inr (by rw [Char.ofNat, dif_neg hvalid]; rfl)
  constructor
  · intro hfeed
    rw [hfeed] at htoNat
    rcases htoNat with hcode | hzero
    · exact h.1 hcode.symm
    · exact absurd hzero (by decide)
  · intro hreturn
    rw [hreturn] at htoNat
    rcases htoNat with hcode | hzero
    · exact h.2 hcode.symm
    · exact absurd hzero (by decide)

/-- An escape by number does not break a line. -/
theorem byNumber_noBreak (code : Nat) : ∀ c ∈ byNumber code, c ≠ '\n' ∧ c ≠ '\r' := by
  have hpadded : ∀ width, ∀ c ∈ hexPadded width code, c ≠ '\n' ∧ c ≠ '\r' := by
    intro width c hc
    rcases List.mem_append.mp hc with hc | hc
    · rw [List.eq_of_mem_replicate hc]
      decide
    · exact toDigits_noBreak (by decide) code c hc
  unfold byNumber
  split
  · exact List.forall_mem_cons.mpr ⟨by decide, List.forall_mem_cons.mpr ⟨by decide, hpadded 2⟩⟩
  · split
    · exact List.forall_mem_cons.mpr ⟨by decide, List.forall_mem_cons.mpr ⟨by decide, hpadded 4⟩⟩
    · exact List.forall_mem_cons.mpr ⟨by decide, List.forall_mem_cons.mpr ⟨by decide, hpadded 8⟩⟩

/-- No code point is written as a line break inside quotes: line feed and carriage return have escapes of their own, so what is
written as it stands is another one. -/
theorem escape_noBreak {shown : Nat → Bool} {slashed : List Nat} (hslashed : ∀ code ∈ slashed, code ≠ 0x0a ∧ code ≠ 0x0d)
    (code : Nat) : ∀ c ∈ escape shown slashed code, c ≠ '\n' ∧ c ≠ '\r' := by
  unfold escape
  split
  · rename_i hmem
    have hcode := hslashed code (by simpa using hmem)
    exact List.forall_mem_cons.mpr ⟨by decide, List.forall_mem_singleton.mpr (ofNat_noBreak hcode)⟩
  · split
    · simp
    · split
      · simp
      · rename_i hfeed
        split
        · simp
        · rename_i hreturn
          split
          · exact List.forall_mem_singleton.mpr (ofNat_noBreak ⟨by simpa using hfeed, by simpa using hreturn⟩)
          · exact byNumber_noBreak code

end Quoted

/-- Quoted text stays on one line, whatever it quotes. -/
theorem oneLine_quote (t : Text) : (Text.ofString (quote t)).OneLine := by
  have hmark : Quoted.mark t.codes = 0x22 ∨ Quoted.mark t.codes = 0x27 := by
    unfold Quoted.mark
    split
    · exact .inl rfl
    · exact .inr rfl
  have hslashed : ∀ code ∈ [Quoted.mark t.codes, 0x5c], code ≠ 0x0a ∧ code ≠ 0x0d := by
    rcases hmark with h | h <;> simp [h]
  have hquote := Quoted.ofNat_noBreak (hslashed _ List.mem_cons_self)
  rw [Text.oneLine_ofString_iff, quote, Quoted.between, String.toList_ofList]
  intro c hc
  rw [List.mem_append, List.mem_cons, List.mem_flatMap, List.mem_singleton] at hc
  rcases hc with (rfl | ⟨code, -, hc⟩) | rfl
  · exact hquote
  · exact Quoted.escape_noBreak hslashed code c hc
  · exact hquote

/-- The name of a kind is one line. -/
theorem Value.oneLine_kind (v : Value) : (Text.ofString v.kind).OneLine := by
  cases v <;> (simp only [Value.kind]; decide)

/-! ## Messages -/

/-- The texts that a call fault repeats in its message as they were given to it. -/
def AbiFault.repeated : AbiFault → List Text
  | .invalidWidth width => [width]
  | .specNotText kind => [kind]
  | .unsupportedType quotedSpec => [quotedSpec]
  | .duplicateFunction name => [name]
  | .selectorCollision first second => [first, second]
  | .unknownFunction quotedName _ => [quotedName]
  | .wrongArity signature _ _ => [signature]
  | _ => []

/-- The texts that a domain fault repeats in its message as they were given to it. -/
def DomainFault.repeated : DomainFault → List Text
  | .notInteger name kind => [name, kind]
  | .negative name _ => [name]
  | .tooWide name _ => [name]
  | .wordNotBytes kind => [kind]
  | .notNumeral quotedText => [quotedText]
  | .notNumber kind => [kind]
  | .belowZero width _ => [width]
  | .overflow width _ => [width]
  | _ => []

/-- All else that a call fault says stays on one line. -/
theorem AbiFault.oneLine_message (f : AbiFault) (h : ∀ t ∈ f.repeated, t.OneLine) : f.message.OneLine := by
  cases f <;> simp +decide only [repeated, List.forall_mem_cons, List.not_mem_nil, IsEmpty.forall_iff, implies_true, and_true,
    true_and, message, Text.oneLine_append, oneLine_decimalNat, oneLine_quote] at h ⊢ <;> exact h

/-- The message of a fault of a number is one line if what it repeats is. -/
theorem DomainFault.oneLine_message (f : DomainFault) (h : ∀ t ∈ f.repeated, t.OneLine) : f.message.OneLine := by
  cases f <;> simp +decide only [repeated, List.forall_mem_cons, List.not_mem_nil, IsEmpty.forall_iff, implies_true, and_true,
    true_and, message, Text.oneLine_append, oneLine_decimalNat] at h ⊢ <;> exact h

/-- A fault that is said on one line, if it is reported at all. -/
def Fault.OneLine : Fault → Prop
  | .store f => f.message.OneLine
  | _ => True

/-- A fault of a call is told in one line if what it repeats is one. -/
theorem oneLine_abi {f : AbiFault} (h : ∀ t ∈ f.repeated, t.OneLine) : (Fault.abi f).OneLine := f.oneLine_message h

/-- A fault of a number is told in one line if what it repeats is one. -/
theorem oneLine_domain {f : DomainFault} (h : ∀ t ∈ f.repeated, t.OneLine) : (Fault.domain f).OneLine := f.oneLine_message h

/-- A number without a text is told in one line. -/
theorem fails_decimalText (n : Int) : Fails (Value.decimalText n) Fault.OneLine := by
  unfold Value.decimalText
  split
  · exact fails_ok _
  · exact fails_error trivial

/-- A number that does not fit is refused on one line, however long the number is. -/
theorem fitUInt_oneLine {bits : Int} (hbits : bits.natAbs < 2 ^ 256) (n : Int) : Fails (fitUInt bits n) Fault.OneLine := by
  have hwidth := List.forall_mem_singleton.mpr (oneLine_decimalInt bits)
  unfold fitUInt
  split
  · rw [Json.decimalText_word hbits, ok_bind]
    exact .bind (fails_decimalText n) fun _ _ => fails_error (oneLine_domain hwidth)
  · split
    · rw [Json.decimalText_word hbits, ok_bind]
      exact fails_error (oneLine_domain hwidth)
    · exact fails_ok _

/-- A value that is not taken as a number is refused on one line: texts are quoted, and other values named by their kind. -/
theorem coerceUInt_oneLine (v : Value) : Fails (coerceUInt 256 v) Fault.OneLine := by
  have hkind : Fails (.error (.domain (.notNumber v.kind)) : Except Fault Nat) Fault.OneLine :=
    fails_error (oneLine_domain (List.forall_mem_singleton.mpr v.oneLine_kind))
  cases v with
  | bool b => exact fails_error (oneLine_domain nofun)
  | text t =>
    unfold coerceUInt
    dsimp only
    split
    · exact fitUInt_oneLine (by decide) _
    · exact fails_error (oneLine_domain (List.forall_mem_singleton.mpr (oneLine_quote t)))
  | int n => exact fitUInt_oneLine (by decide) n
  | _ => exact hkind

/-- A call by name is refused on one line, whatever the name and the arguments. -/
theorem request_oneLine (name : Text) (args : List Value) : Fails (Site.request (.text name) (.list args)) Fault.OneLine := by
  have hlookup : Fails (Manifest.lookup Manifest.packaged (.text name)) Fault.OneLine := by
    unfold Manifest.lookup
    rw [Manifest.packaged_methods, ok_bind]
    simp only [Value.canIndex, Bool.not_true, Bool.false_eq_true, if_false]
    split
    · exact fails_ok _
    · exact fails_error (oneLine_abi (List.forall_mem_singleton.mpr (oneLine_quote name)))
  refine .bind hlookup fun m hm => ?_
  obtain ⟨-, hm⟩ := lookup_packaged_iff.mp hm
  have hsignature : m.signature.OneLine := by rcases hm with rfl | rfl <;> decide
  refine .bind ?_ fun _ _ => fails_ok _
  by_cases hlen : args.length = m.inputs.length
  · rcases hm with rfl | rfl
    · obtain ⟨v, rfl⟩ := List.length_eq_one_iff.mp hlen
      rw [coerceArguments_setter]
      exact (coerceUInt_oneLine v).map _
    · obtain rfl := List.length_eq_zero_iff.mp hlen
      exact fails_ok _
  · have hcount : Site.coerceArguments m (.list args) = .error (.abi (.wrongArity m.signature m.inputs.length args.length)) :=
      if_pos hlen
    rw [hcount]
    exact fails_error (oneLine_abi (List.forall_mem_singleton.mpr hsignature))

/-! ## Calldata -/

/-- A count that is not taken is told in one line. -/
theorem Varint.read_oneLine (b : Bytes) : Fails (read b) Fault.OneLine := by
  intro e he
  obtain ⟨f, rfl, hmalformed⟩ := read_eq_error_iff.mp he
  cases f with
  | countTruncated | countTooLong | countNotMinimal => exact oneLine_abi nofun
  | _ => exact hmalformed.elim

/-- A frame that is not taken is told in one line. -/
theorem Frame.read_oneLine (t : UIntType) (b : Bytes) : Fails (read t.bits b) Fault.OneLine := by
  intro e he
  rcases malformed_or_wide_of_read he with ⟨f, rfl, hmalformed⟩ | ⟨v, hbegins, hwide⟩
  · cases f with
    | magnitudeEmpty | payloadTruncated | magnitudeNotMinimal => exact oneLine_abi nofun
    | countTruncated | countTooLong | countNotMinimal => exact oneLine_abi nofun
    | _ => exact hmalformed.elim
  · rw [read_of_begins hbegins hwide] at he
    cases he
    exact oneLine_domain (List.forall_mem_singleton.mpr (oneLine_decimalInt _))

/-- A list of arguments that is not taken is told in one line. -/
theorem Arguments.read_oneLine (types : List UIntType) (b : Bytes) : Fails (read types b) Fault.OneLine := by
  have hitems : ∀ (ts : List UIntType) (b : Bytes), Fails (readItems pure Frame.read ts b) Fault.OneLine := by
    intro ts
    induction ts with
    | nil => exact fun _ => fails_ok _
    | cons t ts ih =>
      intro b
      refine .bind (fails_ok t) fun _ h => .bind ?_ fun _ _ => .bind (ih _) fun _ _ => fails_ok _
      cases h
      exact Frame.read_oneLine t b
  refine .bind (Varint.read_oneLine b) fun counted _ => .bind ?_ fun _ _ => hitems types _
  unfold checkCount
  split
  · exact fails_ok _
  · exact fails_error (oneLine_abi nofun)

/-- Calldata is refused on one line, whatever its bytes. -/
theorem Calldata.decode_oneLine (most : Nat) (data : Bytes) : Fails (decode most Manifest.packaged data) Fault.OneLine := by
  unfold decode
  split
  · exact fails_error (oneLine_abi nofun)
  · split
    · exact fails_error (oneLine_abi nofun)
    · rw [Manifest.packaged_table, ok_bind]
      split
      · exact fails_error (oneLine_abi nofun)
      · refine .bind (Arguments.read_oneLine _ _) fun args _ => ?_
        dsimp only
        split
        · exact fails_ok _
        · exact fails_error (oneLine_abi nofun)

/-- Whatever is handed to a host as a call, it is refused on one line. -/
theorem HostCall.asked_oneLine (call : HostCall) (c : Config) : Fails (call.asked (.ok c)) Fault.OneLine := by
  cases call with
  | named name args => exact request_oneLine name args
  | raw data => exact Calldata.decode_oneLine c.maxCalldataBytes data

/-! ## Times -/

/-- The text of a time stays on one line. -/
theorem Clock.oneLine_text (milliseconds : Int) : (Text.ofString (Clock.text milliseconds)).OneLine := by
  have hpadded : ∀ width n, (Text.ofString (padded width n)).OneLine := by
    intro width n
    rw [padded, Text.oneLine_ofString_append, Text.oneLine_ofString_iff, String.toList_ofList]
    refine ⟨?_, oneLine_decimalNat n⟩
    intro c hc
    rw [List.eq_of_mem_replicate hc]
    decide
  simp +decide only [Clock.text, Text.oneLine_ofString_append, hpadded, and_true]

end WordSlot
