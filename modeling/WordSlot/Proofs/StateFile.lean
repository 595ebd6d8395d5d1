import WordSlot.Proofs.Dispatch
import WordSlot.Proofs.JsonValues
import WordSlot.Proofs.Utf8
import WordSlot.Storage.StateFile

/-!
# State files hold their slots

Slots with distinct keys that are not empty and values of at most a word are written as a state file that is read back as the
same mapping, and whatever is read from a state file is of that form. The written text is plain: it survives the coding of
characters as bytes and the unifying of line breaks.
-/

namespace WordSlot

open Outcome

/-! ## Line breaks -/

/-- Text without carriage returns has its line ends unified. -/
theorem StateFile.unifyLines_of_not_mem {cs : List Char} (h : '\r' ∉ cs) : unifyLines cs = cs := by
  fun_induction unifyLines cs with
  | case1 => rfl
  | case2 rest ih => exact absurd List.mem_cons_self h
  | case3 rest _ ih => exact absurd List.mem_cons_self h
  | case4 c rest _ _ ih => rw [ih fun hr => h (List.mem_cons_of_mem _ hr)]

/-! ## Hex text -/

/-- A hex digit is no blank, has its value, and is an ASCII character. -/
theorem hexDigit_facts : ∀ k < 16, isAsciiBlank (Nat.digitChar k) = false ∧ hexValue? (Nat.digitChar k) = some k ∧
    (Nat.digitChar k).toNat < 128 := by
  decide

/-- Hex digits are read back. -/
theorem readHex_hexDigits (b : Bytes) : readHex (hexDigits b) = some b := by
  induction b with
  | nil => rfl
  | cons x b ih =>
    have hx := x.toNat_lt
    obtain ⟨hblank, hhigh, -⟩ := hexDigit_facts (x.toNat / 16) (by omega)
    obtain ⟨-, hlow, -⟩ := hexDigit_facts (x.toNat % 16) (by omega)
    have hbyte : UInt8.ofNat (x.toNat / 16 * 16 + x.toNat % 16) = x := by
      rw [Nat.div_add_mod', UInt8.ofNat_toNat]
    have hdigits : hexDigits (x :: b) = Nat.digitChar (x.toNat / 16) :: Nat.digitChar (x.toNat % 16) :: hexDigits b := rfl
    rw [hdigits, readHex, hblank]
    simp only [Bool.false_eq_true, if_false, hhigh, hlow, ih, Option.map_some, hbyte]

/-- A value is marked hex text for bytes: the mark, and then digits that spell them. -/
def Value.SpellsHex (v : Value) (b : Bytes) : Prop :=
  ∃ digits : List Char, v = .text (Text.ofChars ('0' :: 'x' :: digits)) ∧ readHex digits = some b

/-- The code points of marked hex. -/
def markedCodes (b : Bytes) : List Nat := 0x30 :: 0x78 :: (hexDigits b).map Char.toNat

/-- Bytes are written as marked hex. -/
theorem codes_hexMarked (b : Bytes) : (Text.ofString (hexMarked b)).codes = markedCodes b := by
  simp [Text.ofString, Text.ofChars, hexMarked, hex, markedCodes]

/-- The characters of hex are the digits below sixteen. -/
theorem mem_hexDigits {b : Bytes} {c : Char} (h : c ∈ hexDigits b) : ∃ k < 16, c = Nat.digitChar k := by
  obtain ⟨x, -, hc⟩ := List.mem_flatMap.mp h
  have hx := x.toNat_lt
  simp only [List.mem_cons, List.not_mem_nil, or_false] at hc
  rcases hc with rfl | rfl
  · exact ⟨_, by omega, rfl⟩
  · exact ⟨_, by omega, rfl⟩

/-- The code points of marked hex are characters. -/
theorem scalar_markedCodes (b : Bytes) : ∀ code ∈ markedCodes b, Text.isScalar code = true := by
  have hascii : ∀ {code : Nat}, code < 128 → Text.isScalar code = true := fun h => by
    simp only [Text.isScalar, Bool.or_eq_true, decide_eq_true_eq]
    omega
  intro code hcode
  simp only [markedCodes, List.mem_cons, List.mem_map] at hcode
  rcases hcode with rfl | rfl | ⟨c, hc, rfl⟩
  · rfl
  · rfl
  · obtain ⟨k, hk, rfl⟩ := mem_hexDigits hc
    exact hascii (hexDigit_facts k hk).2.2

namespace StateFile

/-- A part of a slot is read exactly from a value that spells its bytes. -/
theorem readPart_eq_ok_iff {part : SlotPart} {v : Value} {b : Bytes} : readPart part v = .ok b ↔ v.SpellsHex b := by
  constructor
  · intro h
    unfold readPart at h
    split at h
    · rename_i t
      split at h
      · rename_i digits hcodes
        split at h
        · rename_i found hread
          cases h
          obtain ⟨cs, hcs, hhex⟩ := Option.bind_eq_some_iff.mp hread
          have hdigits : digits = cs.map Char.toNat := congrArg Text.codes (Text.chars?_eq_some_iff.mp hcs)
          rw [hdigits] at hcodes
          exact ⟨cs, congrArg (Value.text ∘ Text.mk) hcodes, hhex⟩
        · cases h
      · cases h
    · cases h
  · rintro ⟨digits, rfl, hhex⟩
    have hchars : Text.chars? ⟨digits.map Char.toNat⟩ = some digits := Text.chars?_eq_some_iff.mpr rfl
    have hcodes : (Text.ofChars ('0' :: 'x' :: digits)).codes = 0x30 :: 0x78 :: digits.map Char.toNat := rfl
    rw [readPart]
    simp only [hcodes, hchars, Option.bind_some, hhex]

/-- A part that is written is read back. -/
theorem readPart_markedCodes (part : SlotPart) (b : Bytes) : readPart part (.text ⟨markedCodes b⟩) = .ok b :=
  readPart_eq_ok_iff.mpr ⟨hexDigits b, rfl, readHex_hexDigits b⟩

end StateFile

/-- Different bytes are written differently. -/
theorem markedCodes_injective : Function.Injective markedCodes := by
  intro a b h
  have hread := StateFile.readPart_markedCodes .key a
  rw [h, StateFile.readPart_markedCodes .key b] at hread
  exact (Except.ok.inj hread).symm

/-! ## The order of keys -/

/-- Hex digits are ordered as what they stand for. -/
theorem digitChar_lt_iff : ∀ j < 16, ∀ k < 16, (Nat.digitChar j).toNat < (Nat.digitChar k).toNat ↔ j < k := by decide

/-- Hex digits are told apart by what they stand for. -/
theorem digitChar_eq_iff : ∀ j < 16, ∀ k < 16, (Nat.digitChar j).toNat = (Nat.digitChar k).toNat ↔ j = k := by decide

/-- Keys are ordered as their marked hex texts are. -/
theorem before_eq_notAfter (a b : Bytes) : Slots.before a b = Text.notAfter ⟨markedCodes a⟩ ⟨markedCodes b⟩ := by
  have hdigits : ∀ a b : Bytes, Slots.before a b =
      Text.notAfter ⟨(hexDigits a).map Char.toNat⟩ ⟨(hexDigits b).map Char.toNat⟩ := by
    intro a
    induction a with
    | nil => exact fun b => (Text.notAfter_nil _).symm
    | cons x a ih =>
      intro b
      cases b with
      | nil => rfl
      | cons y b =>
        have hcons : ∀ (z : UInt8) (c : Bytes), (hexDigits (z :: c)).map Char.toNat =
            (Nat.digitChar (z.toNat / 16)).toNat :: (Nat.digitChar (z.toNat % 16)).toNat :: (hexDigits c).map Char.toNat :=
          fun _ _ => rfl
        have hx := x.toNat_lt
        have hy := y.toNat_lt
        rw [hcons, hcons, Text.notAfter_cons, Text.notAfter_cons, ← ih b, Slots.before]
        simp only [digitChar_eq_iff _ (by omega : x.toNat / 16 < 16) _ (by omega : y.toNat / 16 < 16),
          digitChar_lt_iff _ (by omega : x.toNat / 16 < 16) _ (by omega : y.toNat / 16 < 16),
          digitChar_eq_iff _ (by omega : x.toNat % 16 < 16) _ (by omega : y.toNat % 16 < 16),
          digitChar_lt_iff _ (by omega : x.toNat % 16 < 16) _ (by omega : y.toNat % 16 < 16),
          ← UInt8.toNat_inj, UInt8.lt_iff_toNat_lt]
        by_cases hhigh : x.toNat / 16 = y.toNat / 16
        · by_cases hlow : x.toNat % 16 = y.toNat % 16
          · rw [if_pos (by omega), if_pos hhigh, if_pos hlow]
          · rw [if_neg (by omega), if_pos hhigh, if_neg hlow]
            exact decide_eq_decide.mpr (by omega)
        · rw [if_neg (by omega), if_neg hhigh]
          exact decide_eq_decide.mpr (by omega)
  rw [hdigits, markedCodes, markedCodes, Text.notAfter_cons, Text.notAfter_cons, if_pos rfl, if_pos rfl]

/-! ## Slots -/

namespace Slots

/-- Slots as a state file can hold them: distinct keys that are not empty, values of at most a word. -/
structure WellFormed (s : Slots) : Prop where
  nodup : (s.map (·.1)).Nodup
  bounded : ∀ e ∈ s, e.1 ≠ [] ∧ e.2.length ≤ wordBytes

/-- An empty storage is well formed. -/
theorem wellFormed_nil : WellFormed [] := ⟨.nil, nofun⟩

/-- A new slot comes last. -/
theorem put_of_new {s : Slots} {key : Bytes} (value : Bytes) (h : key ∉ s.map (·.1)) :
    s.put key value = s ++ [(key, value)] := by
  induction s with
  | nil => rfl
  | cons e s ih =>
    obtain ⟨k, v⟩ := e
    simp only [List.map_cons, List.mem_cons, not_or] at h
    rw [put, if_neg (Ne.symm h.1), ih h.2]
    rfl

/-- After setting a slot there is nothing but that slot and the old ones. -/
theorem mem_of_mem_put {s : Slots} {key value : Bytes} {e : Bytes × Bytes} (h : e ∈ s.put key value) :
    e = (key, value) ∨ e ∈ s := by
  induction s with
  | nil => exact .inl (List.mem_singleton.mp h)
  | cons d s ih =>
    obtain ⟨k, v⟩ := d
    rw [put] at h
    split at h
    · rename_i hk
      subst hk
      rcases List.mem_cons.mp h with rfl | h
      · exact .inl rfl
      · exact .inr (List.mem_cons_of_mem _ h)
    · rcases List.mem_cons.mp h with rfl | h
      · exact .inr List.mem_cons_self
      · exact (ih h).imp_right (List.mem_cons_of_mem _)

/-- Setting a slot keeps the keys distinct. -/
theorem nodup_put {s : Slots} (h : (s.map (·.1)).Nodup) (key value : Bytes) : ((s.put key value).map (·.1)).Nodup := by
  induction s with
  | nil => exact List.nodup_singleton key
  | cons d s ih =>
    obtain ⟨k, v⟩ := d
    obtain ⟨hk, hs⟩ := List.nodup_cons.mp h
    rw [put]
    split
    · exact List.nodup_cons.mpr ⟨hk, hs⟩
    · rename_i hne
      refine List.nodup_cons.mpr ⟨fun hmem => ?_, ih hs⟩
      obtain ⟨e, he, hek⟩ := List.mem_map.mp hmem
      rcases mem_of_mem_put he with rfl | he
      · exact hne hek.symm
      · exact hk (List.mem_map.mpr ⟨e, he, hek⟩)

/-- Setting a slot with a key to a word keeps slots well formed. -/
theorem WellFormed.put {s : Slots} (h : s.WellFormed) {key value : Bytes} (hkey : key ≠ [])
    (hvalue : value.length ≤ wordBytes) : (s.put key value).WellFormed where
  nodup := nodup_put h.nodup key value
  bounded := by
    intro e he
    rcases mem_of_mem_put he with rfl | he
    · exact ⟨hkey, hvalue⟩
    · exact h.bounded e he

/-- Puts one value after another. -/
def putAll (slots : Slots) (puts : List (Bytes × Bytes)) : Slots := puts.foldl (fun s kw => s.put kw.1 kw.2) slots

/-- Setting slots in two goes is setting them all. -/
theorem putAll_append (slots : Slots) (puts puts' : List (Bytes × Bytes)) :
    slots.putAll (puts ++ puts') = (slots.putAll puts).putAll puts' :=
  List.foldl_append

/-- Two lists of slots are one mapping. -/
def Same (s s' : Slots) : Prop := ∀ key, s.get? key = s'.get? key

/-- Slots in another order hold the same. -/
theorem same_of_perm {s s' : Slots} (h : s.Perm s') (hnd : (s.map (·.1)).Nodup) : s.Same s' := by
  intro key
  refine Option.ext fun value => ?_
  rw [get?, get?, lookup_eq_some_iff_mem hnd, lookup_eq_some_iff_mem ((h.map (·.1)).nodup_iff.mp hnd), h.mem_iff]

/-- Sorting only reorders. -/
theorem sorted_perm (s : Slots) : s.sorted.Perm s := List.mergeSort_perm s _

/-- Sorted slots ascend by their keys. -/
theorem sorted_pairwise (s : Slots) : s.sorted.Pairwise fun a b => before a.1 b.1 = true := by
  refine List.pairwise_mergeSort (fun a b c hab hbc => ?_) (fun a b => ?_) s
  · rw [before_eq_notAfter] at *
    exact Text.notAfter_trans hab hbc
  · rw [before_eq_notAfter, before_eq_notAfter]
    exact Text.notAfter_total _ _

/-- Sorted slots are well formed. -/
theorem WellFormed.sorted {s : Slots} (h : s.WellFormed) : s.sorted.WellFormed where
  nodup := ((sorted_perm s).map (·.1)).nodup_iff.mpr h.nodup
  bounded := fun e he => h.bounded e ((sorted_perm s).mem_iff.mp he)

/-- Sorted slots hold the same. -/
theorem WellFormed.same_sorted {s : Slots} (h : s.WellFormed) : s.sorted.Same s :=
  same_of_perm (sorted_perm s) h.sorted.nodup

end Slots

namespace StateFile

/-! ## Documents -/

/-- A slot as a field of the slots object. -/
def slotField (e : Bytes × Bytes) : Text × Value := (⟨markedCodes e.1⟩, .text ⟨markedCodes e.2⟩)

/-- Slots under new keys are read in their order. -/
theorem readSlots_fields {acc s : Slots} (hnd : ((acc ++ s).map (·.1)).Nodup)
    (hs : ∀ e ∈ s, e.1 ≠ [] ∧ e.2.length ≤ wordBytes) :
    readSlots acc ((s.map slotField).map fun f => (.text f.1, f.2)) = .ok (acc ++ s) := by
  induction s generalizing acc with
  | nil => simp [readSlots]
  | cons e s ih =>
    obtain ⟨k, v⟩ := e
    obtain ⟨hkey, hvalue⟩ := hs (k, v) List.mem_cons_self
    have hnew : k ∉ acc.map (·.1) := by
      rw [List.map_append, List.nodup_append] at hnd
      intro hk
      exact hnd.2.2 k hk k (by simp) rfl
    have hnd' : ((acc ++ [(k, v)] ++ s).map (·.1)).Nodup := by simpa using hnd
    have hrest := ih hnd' fun e he => hs e (List.mem_cons_of_mem _ he)
    rw [List.map_cons, List.map_cons, slotField, readSlots, readPart_markedCodes, readPart_markedCodes]
    simp only [ok_bind, List.isEmpty_iff, hkey, if_false, Nat.not_lt.mpr hvalue, Slots.put_of_new v hnew, hrest]
    simp

/-- What is read from a state file is well formed. -/
theorem wellFormed_of_readSlots {acc s : Slots} {members : List (Value × Value)} (hacc : acc.WellFormed)
    (h : readSlots acc members = .ok s) : s.WellFormed := by
  induction members generalizing acc with
  | nil =>
    obtain rfl : acc = s := by simpa [readSlots] using h
    exact hacc
  | cons m members ih =>
    obtain ⟨k, v⟩ := m
    simp only [readSlots, bind_eq_ok] at h
    obtain ⟨key, -, value, -, h⟩ := h
    split at h
    · simp at h
    · rename_i hkey
      split at h
      · simp at h
      · rename_i hvalue
        exact ih (hacc.put (by simpa using hkey) (Nat.le_of_not_lt hvalue)) h

/-- The slots of a document are well formed. -/
theorem wellFormed_of_ofDocument {v : Value} {s : Slots} (h : ofDocument v = .ok s) : s.WellFormed := by
  cases v with
  | dict members =>
    simp only [ofDocument] at h
    split at h
    · simp at h
    · split at h
      · cases h
        exact Slots.wellFormed_nil
      · exact wellFormed_of_readSlots Slots.wellFormed_nil h
      · simp at h
  | _ => simp [ofDocument] at h

/-- The slots of a state file are well formed. -/
theorem wellFormed_of_decode {content : Bytes} {s : Slots} (h : decode content = .ok s) : s.WellFormed := by
  unfold decode at h
  split at h
  · simp at h
  · split at h
    · simp at h
    · simp at h
    · rename_i v _
      cases hv : ofDocument v with
      | error c => simp [hv, Except.mapError] at h
      | ok s' =>
        rw [hv] at h
        cases h
        exact wellFormed_of_ofDocument hv

/-- The document of slots, member by member. -/
theorem document_eq (s : Slots) :
    document s = .record [("slots", .record (s.sorted.map slotField)), ("version", .int version)] := by
  have htext : ∀ b, Text.ofString (hexMarked b) = ⟨markedCodes b⟩ := fun b => congrArg Text.mk (codes_hexMarked b)
  simp only [document, htext]
  rfl

/-- The two sorts agree: slots in the order of their keys give a document whose names ascend at every level, so that sorting it by its
names changes nothing. -/
theorem sortKeys_document (s : Slots) : (document s).sortKeys = document s := by
  have hslots : (Value.record (s.sorted.map slotField)).sortKeys = .record (s.sorted.map slotField) := by
    refine Json.sortKeys_of_ascending ?_ (List.forall_mem_map.mpr (List.forall_mem_map.mpr fun e _ => Json.sortKeys_text _))
    rw [List.pairwise_map, List.pairwise_map]
    refine (Slots.sorted_pairwise s).imp fun h => ?_
    rw [before_eq_notAfter] at h
    exact h
  have hnames : Text.notAfter "slots" "version" = true := by decide
  rw [document_eq]
  refine Json.sortKeys_of_ascending (List.pairwise_pair.mpr hnames) ?_
  simp only [List.map_cons, List.map_nil, List.forall_mem_cons, List.not_mem_nil, IsEmpty.forall_iff, implies_true, and_true]
  exact ⟨hslots, Json.sortKeys_int _⟩

/-- The document of slots can be written. -/
theorem writes_document (s : Slots) : Json.Writes (document s) := by
  have hslots : Json.Writes (.record (s.sorted.map slotField)) :=
    Json.writes_dict (List.forall_mem_map.mpr (List.forall_mem_map.mpr fun e _ => ⟨⟨_, rfl⟩, Json.writes_text _⟩))
  rw [document_eq]
  refine Json.writes_dict ?_
  simp only [List.map_cons, List.map_nil, List.forall_mem_cons, List.not_mem_nil, IsEmpty.forall_iff, implies_true, and_true]
  exact ⟨⟨⟨_, rfl⟩, hslots⟩, ⟨_, rfl⟩, Json.writes_int (by decide)⟩

/-- The document of slots is not nested deeply. -/
theorem nesting_document (s : Slots) : (document s).nesting ≤ 2 := by
  have hslots : (Value.record (s.sorted.map slotField)).nesting ≤ 1 :=
    Nat.succ_le_succ (Value.nestingEntries_le (List.forall_mem_map.mpr (List.forall_mem_map.mpr fun e _ => Nat.le_refl 0)))
  rw [document_eq]
  refine Nat.succ_le_succ (Value.nestingEntries_le ?_)
  simp only [List.map_cons, List.map_nil, List.forall_mem_cons, List.not_mem_nil, IsEmpty.forall_iff, implies_true, and_true]
  exact ⟨hslots, Nat.zero_le 1⟩

/-- A document of slots is read back as it is. -/
theorem readBack_document {s : Slots} (h : s.WellFormed) : (document s).readBack = document s := by
  have hslots : (Value.record (s.sorted.map slotField)).readBack = .record (s.sorted.map slotField) := by
    have hkeys : ((s.sorted.map slotField).map (·.1)).Nodup := by
      have hmarked := h.sorted.nodup.map markedCodes_injective
      rw [List.map_map] at hmarked ⊢
      exact List.Nodup.of_map Text.codes (by rw [List.map_map]; exact hmarked)
    rw [Value.readBack_record hkeys (List.forall_mem_map.mpr fun e _ => scalar_markedCodes e.1), List.map_map]
    congr 1
    refine List.map_congr_left fun e _ => Prod.ext rfl ?_
    exact congrArg Value.text (Text.readBack_of_scalar (scalar_markedCodes e.2))
  have hnames : [Text.ofString "slots", Text.ofString "version"].Nodup := by decide
  have hscalar : ∀ t ∈ [Text.ofString "slots", Text.ofString "version"], ∀ code ∈ t.codes, Text.isScalar code = true := by
    decide
  rw [document_eq]
  refine (Value.readBack_record (by exact hnames) fun f hf => hscalar f.1 (List.mem_map_of_mem hf)).trans ?_
  simp only [List.map_cons, List.map_nil, hslots]
  rfl

/-- The text of slots is that of their document, with a line feed behind it. -/
theorem exists_render {s : Slots} (h : s.WellFormed) :
    ∃ text, render s = text ++ ['\n'] ∧ Json.ReadsAs .lines 2 text (document s) := by
  obtain ⟨text, hwrite⟩ := writes_document s .lines Json.refuseOther 0
  refine ⟨text, ?_, ?_⟩
  · rw [render, sortKeys_document, Json.write, hwrite]
    simp only [ok_bind, pure_eq_ok, String.toList_ofList]
  · have hreads := Json.readsAs_writeAt Json.laid_lines Json.showsPlain_refuseOther (document s) 0 text hwrite
    rw [readBack_document h] at hreads
    exact hreads.mono (nesting_document s)

/-- A state file gives back the slots it was written for. -/
theorem decode_encode {s : Slots} (h : s.WellFormed) : decode (encode s) = .ok s.sorted := by
  obtain ⟨text, hrender, hreads⟩ := exists_render h
  have hclean : '\r' ∉ render s := by
    rw [hrender, List.mem_append, not_or]
    refine ⟨fun hr => ?_, by decide⟩
    rcases hreads.chars _ hr with hchar | ⟨hchar, -⟩
    · revert hchar
      decide
    · nomatch hchar
  have hdocument : ofDocument (document s) = .ok s.sorted := by
    have hread : readSlots [] ((s.sorted.map slotField).map fun f => (.text f.1, f.2)) = .ok ([] ++ s.sorted) :=
      readSlots_fields h.sorted.nodup h.sorted.bounded
    rw [document_eq]
    exact hread
  have hblank : Json.Blank ['\n'] := by simp [Json.Blank, Json.isSpace]
  rw [decode, encode, Utf8.decode_encode]
  simp only [unifyLines_of_not_mem hclean]
  rw [hrender, hreads.read (by decide) hblank]
  simp only [hdocument]
  rfl

end StateFile

end WordSlot
