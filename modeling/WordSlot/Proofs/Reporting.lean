import WordSlot.Command.Run
import WordSlot.Proofs.Calldata
import WordSlot.Proofs.JsonValues

/-!
# What a rejection can be reported as

A rejected call is reported as a document, and a document can be written as JSON as long as the numbers in it have a text. Numbers
get into the report of a fault from sizes and counts of what was handed in, so for words of a size that a machine can count every
fault of a numeral or of calldata is a rejection that can be written.
-/

namespace WordSlot

open Outcome

/-! ## Faults that can be reported -/

/-- Everything that a fault tells besides its message can be written. -/
def StoreFault.Reportable (f : StoreFault) : Prop := ∀ e ∈ f.context, Json.Writes e.2.sortKeys

/-- A fault about a value that was handed in, which can be reported. -/
def Fault.Reportable (f : Fault) : Prop := ∃ g, f = .store g ∧ g.family.aboutValue = true ∧ g.Reportable

/-- A fault about a value that was handed in. If the value is of a size that a machine can count, the fault can be reported. -/
def Fault.Rejects (size : Nat) (f : Fault) : Prop :=
  ∃ g, f = .store g ∧ g.family.aboutValue = true ∧ (size < 2 ^ 63 → g.Reportable)

/-- A size may be overstated. -/
theorem Fault.Rejects.mono {f : Fault} {m n : Nat} (hmn : m ≤ n) (h : f.Rejects m) : f.Rejects n := by
  obtain ⟨g, hf, habout, hg⟩ := h
  exact ⟨g, hf, habout, fun hn => hg (by omega)⟩

/-- A rejection over something of a size that a machine can count can be reported. -/
theorem Fault.Rejects.reportable {f : Fault} {n : Nat} (hn : n < 2 ^ 63) (h : f.Rejects n) : f.Reportable := by
  obtain ⟨g, hf, habout, hg⟩ := h
  exact ⟨g, hf, habout, hg hn⟩

/-- A fault of a call rejects if what it says can be written. -/
theorem rejects_abi {size : Nat} {f : AbiFault} (h : size < 2 ^ 63 → ∀ e ∈ f.context, Json.Writes e.2.sortKeys) :
    (Fault.abi f).Rejects size :=
  ⟨.abi f, rfl, rfl, h⟩

/-- A fault of a call that says nothing more rejects. -/
theorem rejects_abi_of_nil {size : Nat} {f : AbiFault} (h : f.context = []) : (Fault.abi f).Rejects size :=
  rejects_abi fun _ e he => absurd he (by rw [h]; exact List.not_mem_nil)

/-- A fault of a number rejects if what it says can be written. -/
theorem rejects_domain {size : Nat} {f : DomainFault} (h : size < 2 ^ 63 → ∀ e ∈ f.context, Json.Writes e.2.sortKeys) :
    (Fault.domain f).Rejects size :=
  ⟨.domain f, rfl, rfl, h⟩

/-- A number of moderate size in what a fault tells. -/
theorem writes_count {n : Int} (h : n.natAbs < 2 ^ 256) : Json.Writes (Value.int n).sortKeys := by
  rw [Json.sortKeys_int]
  exact Json.writes_int h

/-- A text can be written. -/
theorem writes_word (t : Text) : Json.Writes (Value.text t).sortKeys := by
  rw [Json.sortKeys_text]
  exact Json.writes_text t

/-- The report of a fault can be written. -/
theorem StoreFault.Reportable.writes {f : StoreFault} (h : f.Reportable) : Json.Writes f.report.document.sortKeys := by
  refine Json.writes_sorted ?_
  simp only [List.map_cons, List.map_nil, List.forall_mem_cons, List.not_mem_nil, IsEmpty.forall_iff, implies_true, and_true]
  refine ⟨⟨⟨_, rfl⟩, writes_word _⟩, ⟨⟨_, rfl⟩, writes_word _⟩, ⟨_, rfl⟩, Json.writes_sorted fun e he => ?_⟩
  obtain ⟨e, hmem, rfl⟩ := List.mem_map.mp he
  exact ⟨⟨_, rfl⟩, h e hmem⟩

/-! ## Faults of calldata -/

/-- Groups that are not taken are rejected. -/
theorem Varint.readGroups_fails (allowed : Nat) (first : Bool) (b : Bytes) (size : Nat) :
    Fails (readGroups allowed first b) (Fault.Rejects size) := by
  induction allowed generalizing first b with
  | zero =>
    cases b with
    | nil => exact fails_error (rejects_abi_of_nil rfl)
    | cons x rest => exact fails_error (rejects_abi_of_nil rfl)
  | succ allowed ih =>
    cases b with
    | nil => exact fails_error (rejects_abi_of_nil rfl)
    | cons x rest =>
      unfold readGroups
      split
      · split
        · exact fails_error (rejects_abi_of_nil rfl)
        · exact fails_ok _
      · split
        · exact fails_error (rejects_abi_of_nil rfl)
        · exact .bind (ih false rest) fun _ _ => fails_ok _

/-- A count that is not taken is rejected. -/
theorem Varint.read_fails (b : Bytes) (size : Nat) : Fails (Varint.read b) (Fault.Rejects size) :=
  readGroups_fails maxBytes true b size

/-- A byte string of a size that a machine can count spells a number with few enough binary digits. -/
theorem bitLength_toNat_lt {b : Bytes} (h : b.length < 2 ^ 63) : bitLength b.toNat < 2 ^ 256 := by
  have hbits : bitLength b.toNat ≤ 8 * b.length := by
    rw [bitLength_le_iff, pow_mul]
    exact Bytes.toNat_lt b
  omega

/-- Bytes that are no magnitude of a type are rejected. -/
theorem Frame.ofMagnitude_fails (t : UIntType) (b : Bytes) : Fails (ofMagnitude t.bits b) (Fault.Rejects b.length) := by
  have htype := t.bits_le
  unfold ofMagnitude
  split
  · exact fails_error (rejects_abi_of_nil rfl)
  · split
    · rw [Json.decimalText_word (by omega), ok_bind]
      refine fails_error (rejects_domain fun hsize => ?_)
      have hbits := bitLength_toNat_lt hsize
      simp only [DomainFault.context, List.mem_singleton, forall_eq]
      exact writes_count (by omega)
    · exact fails_ok _

/-- A frame that is not taken is rejected. -/
theorem Frame.read_fails (t : UIntType) (b : Bytes) : Fails (read t.bits b) (Fault.Rejects b.length) := by
  refine .bind (Varint.read_fails b b.length) ?_
  rintro ⟨length, rest⟩ hread
  obtain ⟨rfl, hlength⟩ := Varint.read_eq_ok_iff.mp hread
  dsimp only
  split
  · exact fails_error (rejects_abi_of_nil rfl)
  · split
    · refine fails_error (rejects_abi fun hsize => ?_)
      rw [List.length_append] at hsize
      simp only [AbiFault.context, List.forall_mem_cons, List.not_mem_nil, IsEmpty.forall_iff, implies_true, and_true]
      exact ⟨writes_count (by omega), writes_count (by omega)⟩
    · refine .bind ((ofMagnitude_fails t _).imp fun _ => .mono ?_) fun _ _ => fails_ok _
      rw [List.length_take, List.length_append]
      omega

/-- Items that are not taken are rejected. -/
theorem Arguments.readItems_fails (types : List UIntType) (b : Bytes) :
    Fails (readItems pure Frame.read types b) (Fault.Rejects b.length) := by
  induction types generalizing b with
  | nil => exact fails_ok _
  | cons t types ih =>
    refine .bind (fails_ok t) fun _ ht => ?_
    cases ht
    refine .bind (Frame.read_fails t b) ?_
    rintro ⟨n, rest⟩ hread
    obtain ⟨rfl, -⟩ := Frame.read_type_eq_ok_iff.mp hread
    refine .bind ((ih rest).imp fun _ => .mono ?_) fun _ _ => fails_ok _
    rw [List.length_append]
    omega

/-- A list of arguments that is not taken is rejected. -/
theorem Arguments.read_fails {types : List UIntType} (htypes : types.length < 2 ^ 63) (b : Bytes) :
    Fails (Arguments.read types b) (Fault.Rejects b.length) := by
  refine .bind (Varint.read_fails b b.length) ?_
  rintro ⟨count, rest⟩ hread
  obtain ⟨rfl, hcount⟩ := Varint.read_eq_ok_iff.mp hread
  refine .bind ?_ fun _ _ => (readItems_fails types rest).imp fun _ => .mono ?_
  · unfold checkCount
    split
    · exact fails_ok _
    · refine fails_error (rejects_abi fun _ => ?_)
      simp only [AbiFault.context, List.forall_mem_cons, List.not_mem_nil, IsEmpty.forall_iff, implies_true, and_true]
      exact ⟨writes_count (by omega), writes_count (by omega)⟩
  · rw [List.length_append]
    omega

/-- Calldata that is not taken is rejected, for a reason that can be reported. -/
theorem Calldata.decode_fails (most : Nat) (data : Bytes) :
    Fails (decode most Manifest.packaged data) (Fault.Rejects data.length) := by
  unfold decode
  split
  · refine fails_error (rejects_abi fun hsize => ?_)
    simp only [AbiFault.context, List.mem_singleton, forall_eq]
    exact writes_count (by omega)
  · split
    · refine fails_error (rejects_abi fun hsize => ?_)
      simp only [AbiFault.context, List.mem_singleton, forall_eq]
      exact writes_count (by omega)
    · rw [Manifest.packaged_table, ok_bind]
      split
      · refine fails_error (rejects_abi fun _ => ?_)
        simp only [AbiFault.context, List.mem_singleton, forall_eq]
        exact writes_word _
      · rename_i m hm
        have hinputs : m.inputs.length < 2 ^ 63 := by
          obtain ⟨ms, hms, hmem, -⟩ := (Manifest.table_lookup_iff Manifest.packaged_table).mp hm
          rw [Manifest.packaged_methods] at hms
          cases hms
          simp only [List.mem_cons, List.not_mem_nil, or_false] at hmem
          rcases hmem with rfl | rfl <;> decide
        have hdrop : (data.drop selectorBytes).length ≤ data.length := by
          rw [List.length_drop]
          omega
        refine .bind ((Arguments.read_fails hinputs _).imp fun _ => .mono hdrop) ?_
        rintro ⟨args, rest⟩ hread
        obtain ⟨hsplit, -, -⟩ := Arguments.read_eq_ok_iff.mp hread
        rw [hsplit, List.length_append] at hdrop
        dsimp only
        split
        · exact fails_ok _
        · refine fails_error (rejects_abi fun hsize => ?_)
          simp only [AbiFault.context, List.mem_singleton, forall_eq]
          exact writes_count (by omega)

/-! ## Faults of a numeral -/

namespace Numeral

/-- The last digit is added to the others, one place up. -/
theorem ofDigits_snoc (base : Nat) (ds : List Nat) (d : Nat) : ofDigits base (ds ++ [d]) = ofDigits base ds * base + d := by
  rw [ofDigits, List.foldl_append]
  rfl

/-- Digits below a base spell a number below its power to their count. -/
theorem ofDigits_lt {base : Nat} {ds : List Nat} (h : ∀ d ∈ ds, d < base) : ofDigits base ds < base ^ ds.length := by
  induction ds using List.reverseRecOn with
  | nil => exact Nat.one_pos
  | append_singleton ds d ih =>
    have hd : d < base := h d (by simp)
    have hds := ih fun x hx => h x (List.mem_append_left _ hx)
    rw [ofDigits_snoc, List.length_append, List.length_singleton, pow_succ]
    calc ofDigits base ds * base + d < ofDigits base ds * base + base := by omega
      _ = (ofDigits base ds + 1) * base := by ring
      _ ≤ base ^ ds.length * base := Nat.mul_le_mul_right base hds

/-- Digits are as many as the characters at most, and each is below the base. -/
theorem digits?_eq_some {base : Nat} {cs : List Char} {ds : List Nat} (h : digits? base cs = some ds) :
    ds.length ≤ cs.length ∧ ∀ d ∈ ds, d < base := by
  have hdigit : ∀ {c : Char} {d : Nat}, digit? base c = some d → d < base := by
    intro c d hd
    unfold digit? at hd
    split at hd
    · split at hd
      · cases hd
        assumption
      · cases hd
    · cases hd
  fun_induction digits? base cs generalizing ds with
  | case1 => cases h
  | case2 => cases h
  | case3 c d hd =>
    cases h
    simp [hdigit hd]
  | case4 c d hd rest ih =>
    obtain ⟨ds, hds, rfl⟩ := Option.map_eq_some_iff.mp h
    obtain ⟨hlen, hall⟩ := ih hds
    refine ⟨by simp only [List.length_cons]; omega, ?_⟩
    simpa using ⟨hdigit hd, hall⟩
  | case5 c d hd rest hne hmark ih =>
    obtain ⟨ds, hds, rfl⟩ := Option.map_eq_some_iff.mp h
    obtain ⟨hlen, hall⟩ := ih hds
    refine ⟨by simp only [List.length_cons]; omega, ?_⟩
    simpa using ⟨hdigit hd, hall⟩

/-- A hex digit takes four binary ones at most. -/
theorem markedBody?_bits {cs : List Char} {n : Nat} (h : markedBody? 16 cs = some n) : bitLength n ≤ 4 * cs.length := by
  obtain ⟨ds, hds, rfl⟩ := Option.map_eq_some_iff.mp h
  obtain ⟨hlen, hall⟩ := digits?_eq_some hds
  have hcs : ds.length ≤ cs.length := by
    split at hlen
    · rw [List.length_cons]
      omega
    · exact hlen
  rw [bitLength_le_iff, pow_mul]
  calc ofDigits 16 ds < 16 ^ ds.length := ofDigits_lt hall
    _ ≤ 16 ^ cs.length := Nat.pow_le_pow_right (by decide) hcs

/-- A decimal digit takes less than four binary ones. -/
theorem bitLength_le_of_lt {n k : Nat} (h : n < 10 ^ k) : bitLength n ≤ 4 * k := by
  rw [bitLength_le_iff, pow_mul]
  exact lt_of_lt_of_le h (Nat.pow_le_pow_left (by norm_num) k)

/-- Decimal digits that are read spell a number below the bound on texts of numbers. -/
theorem decimalBody?_lt {cs : List Char} {n : Nat} (h : decimalBody? cs = some n) : n < 10 ^ maxDecimalDigits := by
  unfold decimalBody? at h
  split at h
  · rename_i ds hds
    split at h
    · rename_i hlen
      cases h
      exact lt_of_lt_of_le (ofDigits_lt (digits?_eq_some hds).2) (Nat.pow_le_pow_right (by decide) hlen)
    · cases h
  · cases h

/-- With a sign too. -/
theorem decimal?_lt {cs : List Char} {n : Int} (h : decimal? cs = some n) : n.natAbs < 10 ^ maxDecimalDigits := by
  unfold decimal? signed? at h
  split at h <;>
    · obtain ⟨_, hcast, rfl⟩ := Option.map_eq_some_iff.mp h
      obtain ⟨m, hm, ⟨⟩⟩ := Option.bind_eq_some_iff.mp hcast
      simpa using decimalBody?_lt hm

end Numeral

/-- Trimming the end makes nothing longer. -/
theorem length_trimEnd_le {α : Type} (p : α → Bool) (cs : List α) : (trimEnd p cs).length ≤ cs.length := by
  rw [trimEnd, List.length_reverse]
  exact (List.dropWhile_sublist p).length_le.trans_eq List.length_reverse

/-- Trimming both ends makes nothing longer. -/
theorem length_trimBoth_le {α : Type} (p : α → Bool) (cs : List α) : (trimBoth p cs).length ≤ cs.length :=
  (length_trimEnd_le p (cs.dropWhile p)).trans (List.dropWhile_sublist p).length_le

/-- A text has as many characters as code points. -/
theorem Text.length_of_chars? {t : Text} {cs : List Char} (h : t.chars? = some cs) : cs.length = t.length := by
  unfold Text.chars? at h
  split at h
  · cases h
    rw [List.length_map, Text.length]
  · cases h

/-- Hex text spells no more bytes than it has characters. -/
theorem length_readHex_le {cs : List Char} {b : Bytes} (h : readHex cs = some b) : b.length ≤ cs.length := by
  fun_induction readHex cs generalizing b with
  | case1 =>
    cases h
    exact Nat.le_refl 0
  | case2 c rest hblank ih => exact (ih h).trans (Nat.le_succ _)
  | case3 | case5 => nomatch h
  | case4 c hblank d rest high low hhigh hlow ih =>
    obtain ⟨bytes, hbytes, rfl⟩ := Option.map_eq_some_iff.mp h
    have hlen := ih hbytes
    simp only [List.length_cons]
    omega

/-- A negative number that is given as a numeral has a text, and a numeral of a size that a machine can count gives a number with
few enough binary digits. -/
theorem readNumber?_bounds {t : Text} {n : Int} (h : readNumber? t = some n) :
    (n < 0 → n.natAbs < 10 ^ maxDecimalDigits) ∧ (t.length < 2 ^ 63 → bitLength n.toNat < 2 ^ 256) := by
  have hcs : ∀ cs, t.strip.chars?.map (·.filter (· != '_')) = some cs → cs.length ≤ t.length := by
    intro cs hcs
    obtain ⟨all, hall, rfl⟩ := Option.map_eq_some_iff.mp hcs
    have hstrip : t.strip.length ≤ t.length := length_trimBoth_le _ _
    have hchars := Text.length_of_chars? hall
    have hfilter := List.length_filter_le (· != '_') all
    omega
  have hhex : ∀ rest : List Char, rest.length ≤ t.length → (Numeral.hex? rest).map (fun n => (n : Int)) = some n →
      (n < 0 → n.natAbs < 10 ^ maxDecimalDigits) ∧ (t.length < 2 ^ 63 → bitLength n.toNat < 2 ^ 256) := by
    intro rest hrest hn
    obtain ⟨_, hcast, rfl⟩ := Option.map_eq_some_iff.mp hn
    obtain ⟨m, hm, ⟨⟩⟩ := Option.bind_eq_some_iff.mp hcast
    have hbits := Numeral.markedBody?_bits hm
    have htrim := length_trimEnd_le isAsciiBlank (rest.map Numeral.plain)
    rw [List.length_map] at htrim
    rw [Int.toNat_natCast]
    exact ⟨fun hneg => absurd hneg (by omega), by omega⟩
  unfold readNumber? at h
  split at h
  · rename_i rest hrest
    have hlen := hcs _ hrest
    rw [List.length_cons, List.length_cons] at hlen
    exact hhex rest (by omega) h
  · rename_i rest hrest
    have hlen := hcs _ hrest
    rw [List.length_cons, List.length_cons] at hlen
    exact hhex rest (by omega) h
  · have hdecimal := Numeral.decimal?_lt h
    have hbits := Numeral.bitLength_le_of_lt (lt_of_le_of_lt (by omega : n.toNat ≤ n.natAbs) hdecimal)
    exact ⟨fun _ => hdecimal, fun _ => lt_of_le_of_lt hbits (by norm_num [maxDecimalDigits])⟩
  · cases h

/-- A number that does not fit is rejected if it has a text where that is asked for. -/
theorem fitUInt_fails {n : Int} {size : Nat} (hneg : n < 0 → n.natAbs < 10 ^ maxDecimalDigits)
    (hbits : size < 2 ^ 63 → bitLength n.toNat < 2 ^ 256) : Fails (fitUInt 256 n) (Fault.Rejects size) := by
  unfold fitUInt
  split
  · rename_i hlt
    rw [Json.decimalText_word (by norm_num), Json.decimalText_ok (hneg hlt), ok_bind, ok_bind]
    refine fails_error (rejects_domain fun _ => ?_)
    simp only [DomainFault.context, List.mem_singleton, forall_eq]
    exact writes_word _
  · split
    · rw [Json.decimalText_word (by norm_num), ok_bind]
      refine fails_error (rejects_domain fun hsize => ?_)
      simp only [DomainFault.context, List.mem_singleton, forall_eq]
      exact writes_count (by rw [Int.natAbs_natCast]; exact hbits hsize)
    · exact fails_ok _

/-- A numeral that is not taken is rejected, for a reason that can be reported. -/
theorem coerceUInt_text_fails (t : Text) : Fails (coerceUInt 256 (.text t)) (Fault.Rejects t.length) := by
  unfold coerceUInt
  dsimp only
  split
  · rename_i n hn
    obtain ⟨hneg, hbits⟩ := readNumber?_bounds hn
    exact fitUInt_fails hneg hbits
  · exact fails_error (rejects_domain fun _ => nofun)

/-! ## Outcomes -/

/-- The outcome of a call can be printed as JSON: the word has a text, and so has what is said of a rejection. -/
theorem envelopeText_ok {e : Envelope} (hfunction : e.function = .none ∨ ∃ t, e.function = .text t)
    (hreturned : ∀ n, e.returned = some n → n < wordLimit)
    (herror : ∀ r, e.error = some r → Json.Writes r.document.sortKeys) : ∃ text, Command.envelopeText e = .ok text := by
  have hnone : Json.Writes Value.none.sortKeys := by
    rw [Json.sortKeys_none]
    exact Json.writes_none
  have hbool : ∀ b, Json.Writes (Value.bool b).sortKeys := by
    intro b
    rw [Json.sortKeys_bool]
    exact Json.writes_bool b
  have hwrites : Json.Writes e.document.sortKeys := by
    refine Json.writes_sorted ?_
    simp only [List.map_cons, List.map_nil, List.forall_mem_cons, List.not_mem_nil, IsEmpty.forall_iff, implies_true, and_true]
    refine ⟨⟨⟨_, rfl⟩, hbool _⟩, ⟨⟨_, rfl⟩, ?_⟩, ⟨⟨_, rfl⟩, ?_⟩, ⟨⟨_, rfl⟩, writes_word _⟩, ⟨_, rfl⟩, ?_⟩
    · rcases hfunction with h | ⟨t, h⟩
      · rw [h]
        exact hnone
      · rw [h]
        exact writes_word t
    · cases h : e.returned with
      | none => exact hnone
      | some n => exact writes_count (by rw [Int.natAbs_natCast]; exact hreturned n h)
    · cases h : e.error with
      | none => exact hnone
      | some r => exact herror r h
  obtain ⟨cs, hcs⟩ := hwrites .line Json.refuseOther 0
  exact ⟨String.ofList cs, by rw [Command.envelopeText, Json.write, hcs]; rfl⟩

/-- What is printed of an outcome is one line of plain characters, and reads as the document with its keys in order. -/
theorem reads_envelopeText {e : Envelope} {text : String} (h : Command.envelopeText e = .ok text) :
    (∀ c ∈ text.toList, Json.Printable c) ∧
      ∀ room, e.document.sortKeys.nesting ≤ room → Json.read room text.toList = .ok e.document.sortKeys.readBack := by
  obtain ⟨cs, hcs, htext⟩ := bind_eq_ok.mp h
  obtain rfl : String.ofList cs = text := by simpa using htext
  have hreads := Json.readsAs_writeAt Json.laid_line Json.showsPlain_refuseOther _ _ _ hcs
  rw [String.toList_ofList]
  refine ⟨fun c hc => ?_, fun room hroom => ?_⟩
  · rcases hreads.chars c hc with hprintable | ⟨-, hindent⟩
    · exact hprintable
    · exact absurd rfl hindent
  · have hread := hreads.read hroom (fun c hc => nomatch hc : Json.Blank [])
    rwa [List.append_nil] at hread

/-- The names of an outcome's fields in ascending order. -/
theorem sortKeys_envelopeDocument {ok function returned error : Value} (hok : ok.sortKeys = ok)
    (hfunction : function.sortKeys = function) (hreturned : returned.sortKeys = returned) (herror : error.sortKeys = error)
    (digits : String) : (envelopeDocument ok function returned digits error).sortKeys =
      .record [("error", error), ("function", function), ("ok", ok), ("return", returned),
        ("returnData", .text ("0x" ++ digits))] := by
  have hnames : (["error", "function", "ok", "return", "returnData"] : List Text).Pairwise (Text.notAfter · · = true) := by
    decide
  have hnodup : (["ok", "function", "return", "returnData", "error"] : List Text).Nodup := by decide
  refine Json.sortKeys_record ?_ hnames hnodup ?_
  · -- Each field moves from its place to that of its name.
    have hplaces : [4, 1, 0, 2, 3].Perm [0, 1, 2, 3, 4] := by decide
    exact hplaces.map fun i => ([("ok", ok), ("function", function), ("return", returned), ("returnData", .text ("0x" ++ digits)),
      ("error", error)] : Fields).getD i ("", .none)
  · simp only [List.forall_mem_cons, List.not_mem_nil, IsEmpty.forall_iff, implies_true, and_true]
    exact ⟨hok, hfunction, hreturned, Json.sortKeys_text _, herror⟩

end WordSlot
