import WordSlot.Proofs.JsonNumbers

/-!
# JSON documents

Which documents can be written and when their keys are in order, and that whatever is written, in any layout, is read back. What
comes back is the value as JSON can hold it: tuples as lists, keys as text, a value without a JSON form as its plain text, and one
double that is not a number for all of them.
-/

namespace WordSlot

/-! ## Values as they are read back -/

/-- A text as it is read back from a string: halves of surrogate pairs that stand side by side are joined. -/
def Text.readBack (t : Text) : Text := ⟨Json.readBackCodes t.codes⟩

/-- A text of characters is read back as it is. -/
theorem Text.readBack_of_scalar {t : Text} (h : ∀ code ∈ t.codes, isScalar code = true) : t.readBack = t :=
  congrArg Text.mk (Json.readBackCodes_of_scalar h)

namespace Value

/-- A key as it is read back. -/
def readBackKey (k : Value) : Value :=
  match Json.keyCodes k with
  | .ok codes => .text (Text.readBack ⟨codes⟩)
  | .error _ => .none

mutual

/-- A value as it is read back from its JSON text. -/
def readBack : Value → Value
  | .none => .none
  | .bool b => .bool b
  | .int n => .int n
  | .real x => .real (Json.readBackDouble x)
  | .text t => .text t.readBack
  | .list items => .list (readBackItems items)
  | .tuple items => .list (readBackItems items)
  | .dict entries => .dict (ofEntries (readBackEntries entries))
  | v => .text (v.plain?.getD .empty).readBack

/-- Items as they are read back. -/
def readBackItems : List Value → List Value
  | [] => []
  | v :: vs => readBack v :: readBackItems vs

/-- Entries as they are read back, each for itself. -/
def readBackEntries : List (Value × Value) → List (Value × Value)
  | [] => []
  | (k, v) :: rest => (readBackKey k, readBack v) :: readBackEntries rest

end

mutual

/-- The number of levels of lists and objects in a value. -/
def nesting : Value → Nat
  | .list items => nestingItems items + 1
  | .tuple items => nestingItems items + 1
  | .dict entries => nestingEntries entries + 1
  | _ => 0

/-- The largest number of levels in an item. -/
def nestingItems : List Value → Nat
  | [] => 0
  | v :: vs => max (nesting v) (nestingItems vs)

/-- The largest number of levels in the value of an entry. -/
def nestingEntries : List (Value × Value) → Nat
  | [] => 0
  | (_, v) :: rest => max (nesting v) (nestingEntries rest)

end

/-! ## Entries with distinct keys -/

/-- A new key comes last. -/
theorem insert_of_new {key value : Value} {entries : List (Value × Value)} (h : ∀ e ∈ entries, same e.1 key = false) :
    insert key value entries = entries ++ [(key, value)] := by
  induction entries with
  | nil => rfl
  | cons e entries ih =>
    rw [insert, h e List.mem_cons_self, ih fun e' he' => h e' (List.mem_cons_of_mem _ he')]
    rfl

/-- Entries under distinct texts are put in as they stand. -/
theorem ofEntries_of_nodup {entries : List (Text × Value)} (h : (entries.map (·.1)).Nodup) :
    ofEntries (entries.map fun e => (.text e.1, e.2)) = entries.map fun e => (.text e.1, e.2) := by
  have hfold : ∀ (done more : List (Text × Value)), ((done ++ more).map (·.1)).Nodup →
      (more.map fun e => (Value.text e.1, e.2)).foldl (fun acc e => insert e.1 e.2 acc)
        (done.map fun e => (Value.text e.1, e.2)) = (done ++ more).map fun e => (Value.text e.1, e.2) := by
    intro done more hnd
    induction more generalizing done with
    | nil => simp
    | cons e more ih =>
      have hnew : ∀ x ∈ done.map fun e => (Value.text e.1, e.2), same x.1 (.text e.1) = false := by
        intro x hx
        obtain ⟨d, hd, rfl⟩ := List.mem_map.mp hx
        have hne : d.1 ≠ e.1 := by
          rw [List.map_append, List.nodup_append] at hnd
          exact hnd.2.2 d.1 (List.mem_map_of_mem hd) e.1 (by simp)
        simpa [same] using hne
      rw [List.map_cons, List.foldl_cons, insert_of_new hnew]
      have hsnoc := ih (done ++ [e]) (by simpa using hnd)
      simpa using hsnoc
  exact hfold [] entries h

end Value

namespace Json

open Outcome

/-! ## Documents in the order of their keys -/

/-- Entries are sorted inside, each by itself. -/
theorem sortKeysEntries_eq (entries : List (Value × Value)) :
    Value.sortKeysEntries entries = entries.map fun e => (e.1, e.2.sortKeys) := by
  induction entries with
  | nil => rw [Value.sortKeysEntries]; rfl
  | cons e rest ih =>
    obtain ⟨k, v⟩ := e
    rw [Value.sortKeysEntries, ih]
    rfl

/-- The null has no keys to sort. -/
theorem sortKeys_none : Value.none.sortKeys = .none := by
  rw [Value.sortKeys] <;> exact nofun

/-- A truth value has no keys to sort. -/
theorem sortKeys_bool (b : Bool) : (Value.bool b).sortKeys = .bool b := by
  rw [Value.sortKeys] <;> exact nofun

/-- A number has no keys to sort. -/
theorem sortKeys_int (n : Int) : (Value.int n).sortKeys = .int n := by
  rw [Value.sortKeys] <;> exact nofun

/-- A text has no keys to sort. -/
theorem sortKeys_text (t : Text) : (Value.text t).sortKeys = .text t := by
  rw [Value.sortKeys] <;> exact nofun

/-- A document whose entries ascend, as do those inside them, is in the order of its keys. -/
theorem sortKeys_of_ascending {entries : List (Value × Value)} (h : entries.Pairwise (Value.keyBefore · · = true))
    (hvalues : ∀ e ∈ entries, e.2.sortKeys = e.2) : (Value.dict entries).sortKeys = .dict entries := by
  have hentries : entries.map (fun e => (e.1, e.2.sortKeys)) = entries := by
    calc entries.map (fun e => (e.1, e.2.sortKeys)) = entries.map id :=
          List.map_congr_left fun e he => Prod.ext rfl (hvalues e he)
      _ = entries := List.map_id entries
  rw [Value.sortKeys, sortKeysEntries_eq, hentries, List.mergeSort_of_pairwise h]

/-- A record of fields whose values are in order becomes that of the fields in ascending order of their names. -/
theorem sortKeys_record {fields sorted : List (Text × Value)} (hperm : sorted.Perm fields)
    (hsorted : (sorted.map (·.1)).Pairwise (Text.notAfter · · = true)) (hnodup : (fields.map (·.1)).Nodup)
    (hvalues : ∀ f ∈ fields, f.2.sortKeys = f.2) : (Value.record fields).sortKeys = .record sorted := by
  let entry (f : Text × Value) : Value × Value := (.text f.1, f.2)
  let before (f g : Text × Value) : Bool := f.1.notAfter g.1
  have hentries : Value.sortKeysEntries (fields.map entry) = fields.map entry := by
    rw [sortKeysEntries_eq, List.map_map]
    exact List.map_congr_left fun f hf => congrArg (Prod.mk _) (hvalues f hf)
  have hsort : fields.mergeSort before = sorted := by
    have hfields : (fields.mergeSort before).Perm fields := List.mergeSort_perm _ _
    refine List.Perm.eq_of_pairwise ?_ (List.pairwise_mergeSort ?_ ?_ _) (List.pairwise_map.mp hsorted)
      (hfields.trans hperm.symm)
    · intro f g hf hg hfg hgf
      exact List.inj_on_of_nodup_map hnodup (hfields.mem_iff.mp hf) (hperm.mem_iff.mp hg) (Text.notAfter_antisymm hfg hgf)
    · intro f g h hfg hgh
      exact Text.notAfter_trans hfg hgh
    · intro f g
      exact Text.notAfter_total _ _
  have hmap : (fields.map entry).mergeSort Value.keyBefore = (fields.mergeSort before).map entry :=
    .symm (List.map_mergeSort (f := entry) fun f _ g _ => rfl)
  calc (Value.record fields).sortKeys
      = .dict ((Value.sortKeysEntries (fields.map entry)).mergeSort Value.keyBefore) := by rw [Value.record, Value.sortKeys]
    _ = .dict (sorted.map entry) := by rw [hentries, hmap, hsort]
    _ = .record sorted := rfl

/-! ## Documents that can be written -/

/-- A value that can be written as JSON in every layout. -/
def Writes (v : Value) : Prop := ∀ style other level, ∃ cs, writeAt style other level v = .ok cs

/-- The null can be written. -/
theorem writes_none : Writes .none := fun _ _ _ => ⟨_, by rw [writeAt]; rfl⟩

/-- A truth value can be written. -/
theorem writes_bool (b : Bool) : Writes (.bool b) := fun _ _ _ => ⟨_, by rw [writeAt]; rfl⟩

/-- A text can be written. -/
theorem writes_text (t : Text) : Writes (.text t) := fun _ _ _ => ⟨_, by rw [writeAt]; rfl⟩

/-- A number has a text if it is of a moderate size. -/
theorem decimalText_ok {n : Int} (h : n.natAbs < 10 ^ maxDecimalDigits) : Value.decimalText n = .ok (decimalInt n) := by
  unfold Value.decimalText decimal?
  -- The power is too large to be evaluated.
  generalize maxDecimalDigits = digits at h ⊢
  have hpow : n.natAbs < Nat.pow 10 digits := h
  rw [if_pos hpow]

/-- A number with too many digits has no text. -/
theorem decimalText_error {n : Int} (h : 10 ^ maxDecimalDigits ≤ n.natAbs) :
    Value.decimalText n = .error (.misuse .tooManyDigits) := by
  unfold Value.decimalText decimal?
  generalize maxDecimalDigits = digits at h ⊢
  have hpow : ¬ n.natAbs < Nat.pow 10 digits := not_lt.mpr h
  rw [if_neg hpow]

/-- A number of a word's size has a text. -/
theorem decimalText_word {n : Int} (h : n.natAbs < 2 ^ 256) : Value.decimalText n = .ok (decimalInt n) := by
  refine decimalText_ok (lt_of_lt_of_le h ?_)
  calc 2 ^ 256 ≤ 10 ^ 256 := Nat.pow_le_pow_left (by norm_num) 256
    _ ≤ 10 ^ maxDecimalDigits := Nat.pow_le_pow_right (by norm_num) (by decide)

/-- A number of a word's size can be written. -/
theorem writes_int {n : Int} (h : n.natAbs < 2 ^ 256) : Writes (.int n) := by
  intro style other level
  rw [writeAt, decimalText_word h]
  exact ⟨_, rfl⟩

/-- Entries with text keys can be written if their values can. -/
theorem writes_dict {entries : List (Value × Value)} (h : ∀ e ∈ entries, (∃ t, e.1 = .text t) ∧ Writes e.2) :
    Writes (.dict entries) := by
  have hentries : ∀ style other level, ∃ items, writeEntries style other level entries = .ok items := by
    intro style other level
    induction entries with
    | nil => exact ⟨_, by rw [writeEntries]; rfl⟩
    | cons e rest ih =>
      obtain ⟨k, v⟩ := e
      obtain ⟨⟨t, rfl⟩, hv⟩ := h _ List.mem_cons_self
      obtain ⟨cs, hcs⟩ := hv style other level
      obtain ⟨items, hitems⟩ := ih fun e he => h e (List.mem_cons_of_mem _ he)
      rw [writeEntries, hcs, hitems]
      exact ⟨_, rfl⟩
  intro style other level
  obtain ⟨items, hitems⟩ := hentries style other (level + 1)
  rw [writeAt, hitems]
  exact ⟨_, rfl⟩

/-- A document can be written in ascending order of its keys if its parts can. -/
theorem writes_sorted {entries : List (Value × Value)} (h : ∀ e ∈ entries, (∃ t, e.1 = .text t) ∧ Writes e.2.sortKeys) :
    Writes (Value.dict entries).sortKeys := by
  rw [Value.sortKeys, sortKeysEntries_eq]
  refine writes_dict fun e he => ?_
  obtain ⟨e, hmem, rfl⟩ := List.mem_map.mp (List.mem_mergeSort.mp he)
  exact h e hmem

/-- A number with a text has not too many digits, and the text is its decimal. -/
theorem lt_of_decimalText {n : Int} {s : String} (h : Value.decimalText n = .ok s) :
    n.natAbs < 10 ^ maxDecimalDigits ∧ s = decimalInt n := by
  by_cases hlt : n.natAbs < 10 ^ maxDecimalDigits
  · rw [decimalText_ok hlt] at h
    exact ⟨hlt, (Except.ok.inj h).symm⟩
  · rw [decimalText_error (not_lt.mp hlt)] at h
    nomatch h

/-! ## Documents are read back -/

/-- A text for values without a JSON form that shows them by their plain text, if by anything. -/
def ShowsPlain (other : Value → Except Fault Text) : Prop := ∀ v t, other v = .ok t → v.plain? = some t

/-- The plain text of a value is plain. -/
theorem showsPlain_plainText : ShowsPlain Value.plainText := by
  intro v t h
  unfold Value.plainText at h
  split at h
  · rename_i s hs
    cases h
    exact hs
  · nomatch h

/-- Refusing a value shows nothing. -/
theorem showsPlain_refuseOther : ShowsPlain refuseOther := fun _ _ h => nomatch h

variable {style : Style} {other : Value → Except Fault Text}

/-- A value that is no data is read back as the text that stands for it. -/
theorem readsAs_other (hother : ShowsPlain other) {v : Value} {text : List Char}
    (h : (do pure (writeCodes (← other v).codes)) = Except.ok text) :
    ReadsAs style 0 text (.text (v.plain?.getD .empty).readBack) := by
  obtain ⟨t, ht, htext⟩ := bind_eq_ok.mp h
  cases htext
  rw [hother v t ht]
  exact readsAs_codes style t.codes

/-- A member that is written for an entry: it has the entry's key, and its text reads as what the value is read back as. -/
def Member.Shows (style : Style) (m : Member) (e : Value × Value) : Prop :=
  keyCodes e.1 = .ok m.key ∧ m.value = e.2.readBack ∧ ReadsAs style e.2.nesting m.text m.value

/-- Members that show entries are read as what comes back of them. -/
theorem reads_of_shows {ms : List Member} {entries : List (Value × Value)} (h : List.Forall₂ (Member.Shows style) ms entries) :
    Value.readBackEntries entries = ms.map Member.entry ∧
      ∀ m ∈ ms, ReadsAs style (Value.nestingEntries entries) m.text m.value := by
  induction h with
  | nil => exact ⟨rfl, nofun⟩
  | @cons m e ms entries hm _ ih =>
    obtain ⟨k, v⟩ := e
    obtain ⟨hkey, hvalue, hreads⟩ := hm
    constructor
    · rw [Value.readBackEntries, ih.1, Value.readBackKey, hkey, ← hvalue]
      rfl
    · rw [Value.nestingEntries]
      exact List.forall_mem_cons.mpr ⟨hreads.mono (le_max_left _ _), fun m hm => (ih.2 m hm).mono (le_max_right _ _)⟩

mutual

/-- What is written for a value reads as what the value is read back as. -/
theorem readsAs_writeAt (hlaid : style.Laid) (hother : ShowsPlain other) : ∀ (v : Value) (level : Nat) (text : List Char),
    writeAt style other level v = .ok text → ReadsAs style v.nesting text v.readBack
  | .none => by
    intro level _ h
    rw [writeAt] at h
    cases h
    exact readsAs_word style (by simp [words, Value.readBack])
  | .bool b => by
    intro level _ h
    rw [writeAt] at h
    cases h
    cases b <;> exact readsAs_word style (by simp [words, Value.readBack])
  | .int n => by
    intro level _ h
    rw [writeAt] at h
    obtain ⟨s, hs, htext⟩ := bind_eq_ok.mp h
    cases htext
    obtain ⟨hlt, rfl⟩ := lt_of_decimalText hs
    exact readsAs_int style hlt
  | .real x => by
    intro level _ h
    rw [writeAt] at h
    cases h
    exact readsAs_double style x
  | .text t => by
    intro level _ h
    rw [writeAt] at h
    cases h
    exact readsAs_codes style t.codes
  | .list items => by
    intro level _ h
    rw [writeAt] at h
    obtain ⟨texts, htexts, htext⟩ := bind_eq_ok.mp h
    cases htext
    obtain ⟨read, rfl, hread, hreads⟩ := readsAs_writeItems hlaid hother items _ _ htexts
    rw [Value.readBack, hread]
    exact readsAs_list hlaid hreads level
  | .tuple items => by
    intro level _ h
    rw [writeAt] at h
    obtain ⟨texts, htexts, htext⟩ := bind_eq_ok.mp h
    cases htext
    obtain ⟨read, rfl, hread, hreads⟩ := readsAs_writeItems hlaid hother items _ _ htexts
    rw [Value.readBack, hread]
    exact readsAs_list hlaid hreads level
  | .dict entries => by
    intro level _ h
    rw [writeAt] at h
    obtain ⟨texts, htexts, htext⟩ := bind_eq_ok.mp h
    cases htext
    obtain ⟨ms, rfl, hms⟩ := shows_writeEntries hlaid hother entries _ _ htexts
    obtain ⟨hread, hreads⟩ := reads_of_shows hms
    rw [Value.readBack, hread]
    exact readsAs_object hlaid hreads level
  | .bytes b => fun _ _ => readsAs_other hother
  | .buffer b => fun _ _ => readsAs_other hother
  | .path p => fun _ _ => readsAs_other hother
  | .type t => fun _ _ => readsAs_other hother

/-- Items that are written are read back, one for one. -/
theorem readsAs_writeItems (hlaid : style.Laid) (hother : ShowsPlain other) :
    ∀ (vs : List Value) (level : Nat) (texts : List (List Char)), writeItems style other level vs = .ok texts →
    ∃ items : List (List Char × Value), texts = items.map Prod.fst ∧ Value.readBackItems vs = items.map Prod.snd ∧
      ∀ item ∈ items, ReadsAs style (Value.nestingItems vs) item.1 item.2
  | [] => by
    intro level _ h
    cases h
    exact ⟨[], rfl, rfl, nofun⟩
  | v :: vs => by
    intro level _ h
    obtain ⟨text, htext, h⟩ := bind_eq_ok.mp h
    obtain ⟨texts, htexts, h⟩ := bind_eq_ok.mp h
    cases h
    obtain ⟨items, rfl, hread, hreads⟩ := readsAs_writeItems hlaid hother vs _ _ htexts
    have hfirst := readsAs_writeAt hlaid hother v _ _ htext
    refine ⟨(text, v.readBack) :: items, rfl, by rw [Value.readBackItems, hread]; rfl, ?_⟩
    rw [Value.nestingItems]
    exact List.forall_mem_cons.mpr ⟨hfirst.mono (le_max_left _ _), fun item hitem => (hreads item hitem).mono (le_max_right _ _)⟩

/-- Entries that are written are shown by members, one for one. -/
theorem shows_writeEntries (hlaid : style.Laid) (hother : ShowsPlain other) :
    ∀ (entries : List (Value × Value)) (level : Nat) (texts : List (List Char)),
    writeEntries style other level entries = .ok texts →
    ∃ ms : List Member, texts = ms.map (Member.item style) ∧ List.Forall₂ (Member.Shows style) ms entries
  | [] => by
    intro level _ h
    cases h
    exact ⟨[], rfl, .nil⟩
  | (k, v) :: rest => by
    intro level _ h
    obtain ⟨key, hkey, h⟩ := bind_eq_ok.mp h
    obtain ⟨text, htext, h⟩ := bind_eq_ok.mp h
    obtain ⟨texts, htexts, h⟩ := bind_eq_ok.mp h
    cases h
    obtain ⟨ms, rfl, hms⟩ := shows_writeEntries hlaid hother rest _ _ htexts
    exact ⟨⟨key, text, v.readBack⟩ :: ms, rfl, .cons ⟨hkey, rfl, readsAs_writeAt hlaid hother v _ _ htext⟩ hms⟩

end

/-- The text of an object in a layout: a member for each entry, in the order of the entries. -/
def ObjectText (style : Style) (text : List Char) (entries : List (Value × Value)) : Prop :=
  ∃ ms, List.Forall₂ (Member.Shows style) ms entries ∧ text = style.group 0 '\x7b' '\x7d' (ms.map (Member.item style))

/-- A dictionary that is written is the text of an object with its entries. -/
theorem objectText_writeAt (hlaid : style.Laid) (hother : ShowsPlain other) {entries : List (Value × Value)} {text : List Char}
    (h : writeAt style other 0 (.dict entries) = .ok text) : ObjectText style text entries := by
  rw [writeAt] at h
  obtain ⟨texts, htexts, htext⟩ := bind_eq_ok.mp h
  cases htext
  obtain ⟨ms, rfl, hms⟩ := shows_writeEntries hlaid hother entries _ _ htexts
  exact ⟨ms, hms, rfl⟩

end Json

/-! ## Records -/

namespace Value

/-- Entries come back one for one. -/
theorem readBackEntries_eq (entries : List (Value × Value)) :
    readBackEntries entries = entries.map fun e => (readBackKey e.1, e.2.readBack) := by
  induction entries with
  | nil => rfl
  | cons e rest ih =>
    obtain ⟨k, v⟩ := e
    rw [readBackEntries, ih]
    rfl

/-- Entries are nested no deeper than each of them. -/
theorem nestingEntries_le {entries : List (Value × Value)} {n : Nat} (h : ∀ e ∈ entries, e.2.nesting ≤ n) :
    nestingEntries entries ≤ n := by
  induction entries with
  | nil => exact Nat.zero_le n
  | cons e rest ih =>
    obtain ⟨k, v⟩ := e
    rw [nestingEntries]
    exact max_le (h (k, v) List.mem_cons_self) (ih fun e he => h e (List.mem_cons_of_mem _ he))

/-- A record under distinct keys without halves of surrogate pairs is read back field by field. -/
theorem readBack_record {fields : List (Text × Value)} (hnd : (fields.map (·.1)).Nodup)
    (hkeys : ∀ f ∈ fields, ∀ code ∈ f.1.codes, Text.isScalar code = true) :
    (record fields).readBack = record (fields.map fun f => (f.1, f.2.readBack)) := by
  have hentries : readBackEntries (fields.map fun f => (.text f.1, f.2)) =
      (fields.map fun f => (f.1, f.2.readBack)).map fun f => (.text f.1, f.2) := by
    rw [readBackEntries_eq, List.map_map, List.map_map]
    refine List.map_congr_left fun f hf => ?_
    have hkey : f.1.readBack = f.1 := Text.readBack_of_scalar (hkeys f hf)
    exact Prod.ext (congrArg Value.text hkey) rfl
  rw [record, readBack, hentries, ofEntries_of_nodup (by rw [List.map_map]; exact hnd)]
  rfl

end Value

/-- A record that is written on one line is a line of printable characters, the text of an object with a member for each field, and
is read back. -/
theorem Json.writeLoosely_record {fields : List (Text × Value)} {text : String}
    (h : writeLoosely .compact (.record fields) = .ok text) :
    (∀ c ∈ text.toList, Printable c) ∧ ObjectText .compact text.toList (fields.map fun f => (.text f.1, f.2)) ∧
      ∀ room, (Value.record fields).nesting ≤ room → read room text.toList = .ok (Value.record fields).readBack := by
  obtain ⟨cs, hcs, htext⟩ := Outcome.bind_eq_ok.mp h
  obtain rfl : String.ofList cs = text := by simpa using htext
  have hreads := readsAs_writeAt laid_compact showsPlain_plainText _ _ _ hcs
  rw [String.toList_ofList]
  refine ⟨fun c hc => ?_, objectText_writeAt laid_compact showsPlain_plainText hcs, fun room hroom => ?_⟩
  · rcases hreads.chars c hc with hprintable | ⟨-, hlines⟩
    · exact hprintable
    · exact absurd rfl hlines
  · have hread := hreads.read hroom (fun c hc => nomatch hc : Blank [])
    rwa [List.append_nil] at hread

end WordSlot
