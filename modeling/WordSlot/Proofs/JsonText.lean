import WordSlot.Proofs.JsonStrings
import WordSlot.Proofs.Outcome
import WordSlot.Proofs.Texts

/-!
# JSON that is read back

Text that the reader takes as a given value in front of anything that can follow a value. Strings are such text, and so are lists
and objects of such text, in every layout that puts nothing but blanks and line breaks around its marks. The reader's fuel is
twice the length of what it reads, and every item leaves enough of it for the next.
-/

namespace WordSlot

namespace Json

open Outcome

/-! ## Text that reads as a value -/

/-- What can stand behind a value: nothing, white space, a comma or a closing bracket. -/
def Ends (rest : List Char) : Prop :=
  ∀ c, rest.head? = some c → isSpace c = true ∨ c = ',' ∨ c = ']' ∨ c = '\x7d'

/-- The characters that end a value, one by one. -/
theorem Ends.cases {c : Char} {cs : List Char} (h : Ends (c :: cs)) :
    c = ' ' ∨ c = '\t' ∨ c = '\n' ∨ c = '\r' ∨ c = ',' ∨ c = ']' ∨ c = '\x7d' := by
  have hc := h c rfl
  simp only [isSpace, Bool.or_eq_true, beq_iff_eq, or_assoc] at hc
  exact hc

/-- White space only. -/
def Blank (cs : List Char) : Prop := ∀ c ∈ cs, isSpace c = true

/-- Blanks are skipped. -/
theorem skip_append {cs : List Char} (h : Blank cs) (rest : List Char) : skip (cs ++ rest) = skip rest :=
  List.dropWhile_append_of_pos h

/-- What is no blank is not skipped. -/
theorem skip_cons {c : Char} (h : isSpace c = false) (rest : List Char) : skip (c :: rest) = c :: rest :=
  List.dropWhile_cons_of_neg (by simp [h])

/-- Blanks before an end are an end. -/
theorem ends_append {cs rest : List Char} (hcs : Blank cs) (hrest : Ends rest) : Ends (cs ++ rest) := by
  intro c hc
  cases cs with
  | nil => exact hrest c hc
  | cons b bs =>
    obtain rfl : b = c := by simpa using hc
    exact .inl (hcs b List.mem_cons_self)

/-- Text that starts with neither white space nor a closing bracket. -/
def Starts (text : List Char) : Prop := ∃ c cs, text = c :: cs ∧ isSpace c = false ∧ c ≠ ']' ∧ c ≠ '\x7d'

/-- Nothing is skipped where a value starts. -/
theorem Starts.skip {text : List Char} (h : Starts text) (rest : List Char) : skip (text ++ rest) = text ++ rest := by
  obtain ⟨c, cs, rfl, hc, -⟩ := h
  exact skip_cons hc (cs ++ rest)

/-- A value starts where its text does. -/
theorem Starts.append {text : List Char} (h : Starts text) (rest : List Char) : Starts (text ++ rest) := by
  obtain ⟨c, cs, rfl, hc⟩ := h
  exact ⟨c, cs ++ rest, rfl, hc⟩

/-- The characters of a layout: printable ones, and line breaks if there are lines. -/
def Style.Has (style : Style) (c : Char) : Prop := Printable c ∨ c = '\n' ∧ style.indent ≠ none

/-- Text in a layout that reads as a value of at most `depth` levels, wherever a value can end. -/
structure ReadsAs (style : Style) (depth : Nat) (text : List Char) (v : Value) : Prop where
  starts : Starts text
  chars : ∀ c ∈ text, style.Has c
  reads : ∀ fuel room rest, 2 * text.length ≤ fuel → depth ≤ room → Ends rest →
    readValue fuel room (text ++ rest) = .ok (v, rest)

section

variable {style : Style} {depth depth' room : Nat} {text : List Char} {v : Value}

/-- The text has a character, so the reader has fuel for a first step. -/
theorem ReadsAs.of_succ (starts : Starts text) (chars : ∀ c ∈ text, style.Has c)
    (reads : ∀ fuel room rest, 2 * text.length ≤ fuel + 1 → depth ≤ room → Ends rest →
      readValue (fuel + 1) room (text ++ rest) = .ok (v, rest)) : ReadsAs style depth text v := by
  refine ⟨starts, chars, fun fuel room rest hfuel hroom hends => ?_⟩
  obtain ⟨c, cs, rfl, -⟩ := starts
  cases fuel with
  | zero => nomatch hfuel
  | succ fuel => exact reads fuel room rest hfuel hroom hends

/-- A text that is read in some depth is read in more. -/
theorem ReadsAs.mono (h : ReadsAs style depth text v) (hle : depth ≤ depth') : ReadsAs style depth' text v :=
  ⟨h.starts, h.chars, fun fuel room rest hfuel hroom => h.reads fuel room rest hfuel (hle.trans hroom)⟩

/-- A document with white space behind it is read as a whole. -/
theorem ReadsAs.read (h : ReadsAs style depth text v) (hroom : depth ≤ room) {tail : List Char} (htail : Blank tail) :
    read room (text ++ tail) = .ok v := by
  have hmark : ((text ++ tail).head? == some '\ufeff') = false := by
    obtain ⟨c, cs, rfl, -⟩ := h.starts
    rw [List.cons_append, List.head?_cons, beq_eq_false_iff_ne]
    intro hc
    obtain rfl := Option.some.inj hc
    rcases h.chars _ List.mem_cons_self with hchar | ⟨hchar, -⟩
    · revert hchar
      decide
    · nomatch hchar
  have hends : Ends tail := by
    have hnil : Ends [] := nofun
    simpa using ends_append htail hnil
  have hspace : skip tail = [] := List.dropWhile_eq_nil_iff.mpr htail
  have hvalue := h.reads (2 * (text ++ tail).length + 2) room tail (by simp; omega) hroom hends
  rw [Json.read, hmark, h.starts.skip, hvalue]
  simp only [Bool.false_eq_true, if_false, hspace]

/-- A string reads as what its code points are read back as. -/
theorem readsAs_codes (style : Style) (codes : List Nat) :
    ReadsAs style 0 (writeCodes codes) (.text ⟨readBackCodes codes⟩) := by
  refine .of_succ ⟨'"', _, rfl, rfl, by decide, by decide⟩ (fun c hc => .inl (printable_writeCodes codes c hc)) ?_
  intro fuel room rest _ _ _
  rw [writeCodes, List.cons_append, List.cons_append, readValue, List.append_assoc, List.singleton_append, readChars_codes]
  rfl

end

/-! ## Sequences -/

/-- Values between brackets: how the reader goes on behind the opening one, and what it makes of the items. -/
structure Sequence (α : Type) where
  opening : Char
  closing : Char
  items : Nat → Nat → List Char → Except Flaw (List α × List Char)
  value : List α → Value
  printable : Printable opening ∧ Printable closing
  starts : isSpace opening = false ∧ opening ≠ ']' ∧ opening ≠ '\x7d'
  ends : closing = ']' ∨ closing = '\x7d'
  reads_nil : ∀ fuel room rest, readValue (fuel + 1) (room + 1) (opening :: closing :: rest) = .ok (value [], rest)
  reads_items : ∀ fuel room {text c cs}, skip text = c :: cs → c ≠ closing →
    readValue (fuel + 1) (room + 1) (opening :: text) =
      (items fuel room (c :: cs)).map fun (as, rest) => (value as, rest)

/-- Lists. -/
def listSequence : Sequence Value where
  opening := '['
  closing := ']'
  items := readItems
  value := .list
  printable := by decide
  starts := by decide
  ends := .inl rfl
  reads_nil := fun _ _ _ => rfl
  reads_items := by
    intro fuel room text c cs hskip hc
    unfold readValue
    simp only [hskip]
    split
    · rename_i hroom
      nomatch hroom
    · rename_i heq
      exact absurd (List.cons.inj heq).1 hc
    · rename_i hroom _
      cases hroom
      rfl

/-- Objects. -/
def objectSequence : Sequence (Value × Value) where
  opening := '\x7b'
  closing := '\x7d'
  items := readMembers
  value := fun entries => .dict (Value.ofEntries entries)
  printable := by decide
  starts := by decide
  ends := .inr rfl
  reads_nil := fun _ _ _ => rfl
  reads_items := by
    intro fuel room text c cs hskip hc
    unfold readValue
    simp only [hskip]
    split
    · rename_i hroom
      nomatch hroom
    · rename_i heq
      exact absurd (List.cons.inj heq).1 hc
    · rename_i hroom _
      cases hroom
      rfl

namespace Sequence

variable {α : Type} (s : Sequence α)

/-- A closing bracket is an end. -/
theorem closing_ends (rest : List Char) : Ends (s.closing :: rest) := by
  intro c hc
  obtain rfl : s.closing = c := by simpa using hc
  exact .inr (.inr s.ends)

/-- A closing bracket is not skipped. -/
theorem closing_skip (rest : List Char) : skip (s.closing :: rest) = s.closing :: rest := by
  refine skip_cons ?_ rest
  rcases s.ends with h | h <;> rw [h] <;> rfl

/-- Text that is taken as one item: behind it the sequence ends with its bracket, or it goes on behind a comma. -/
structure Takes (depth : Nat) (text : List Char) (a : α) : Prop where
  starts : Starts text
  last : ∀ {fuel room more rest}, 2 * text.length ≤ fuel → depth ≤ room → Ends more → skip more = s.closing :: rest →
    s.items (fuel + 1) room (text ++ more) = .ok ([a], rest)
  next : ∀ {fuel room more rest}, 2 * text.length ≤ fuel → depth ≤ room → Ends more → skip more = ',' :: rest →
    s.items (fuel + 1) room (text ++ more) = (s.items fuel room (skip rest)).map fun (as, rest) => (a :: as, rest)

variable {s} {depth : Nat} {items : List (List Char × α)} {sep tail : List Char}

/-- The items of a sequence start like the first of them. -/
theorem starts_items (hne : items ≠ []) (hitems : ∀ item ∈ items, s.Takes depth item.1 item.2) (sep : List Char) :
    Starts (sep.intercalate (items.map Prod.fst)) := by
  obtain ⟨item, items, rfl⟩ := List.exists_cons_of_ne_nil hne
  have hstarts := (hitems item List.mem_cons_self).starts
  cases items with
  | nil => simpa using hstarts
  | cons next items =>
    rw [List.map_cons, List.map_cons, List.intercalate_cons_cons, List.append_assoc]
    exact hstarts.append _

/-- Items are read one after the other, up to the closing bracket. -/
theorem reads_sequence (hne : items ≠ []) (hitems : ∀ item ∈ items, s.Takes depth item.1 item.2) (hsep : Blank sep)
    (htail : Blank tail) {fuel room : Nat} (hfuel : 2 * ((',' :: sep).intercalate (items.map Prod.fst)).length < fuel)
    (hroom : depth ≤ room) (rest : List Char) :
    s.items fuel room ((',' :: sep).intercalate (items.map Prod.fst) ++ (tail ++ s.closing :: rest)) =
      .ok (items.map Prod.snd, rest) := by
  induction items generalizing fuel with
  | nil => exact absurd rfl hne
  | cons item items ih =>
    have hitem := hitems item List.mem_cons_self
    obtain ⟨fuel, rfl⟩ : ∃ n, fuel = n + 1 := Nat.exists_eq_add_one_of_ne_zero (by omega)
    cases items with
    | nil =>
      rw [List.map_singleton, List.intercalate_singleton] at hfuel ⊢
      refine hitem.last (by omega) hroom (ends_append htail (s.closing_ends rest)) ?_
      rw [skip_append htail, s.closing_skip]
    | cons next items =>
      have hmore : ∀ item ∈ next :: items, s.Takes depth item.1 item.2 :=
        fun item hmem => hitems item (List.mem_cons_of_mem _ hmem)
      have hstarts := starts_items (List.cons_ne_nil next items) hmore (',' :: sep)
      rw [List.map_cons, List.map_cons, List.intercalate_cons_cons, ← List.map_cons] at hfuel ⊢
      simp only [List.length_append, List.length_cons] at hfuel
      have hnext := ih (List.cons_ne_nil next items) hmore (by omega : _ < fuel)
      have hcomma : Ends (',' :: (sep ++ ((',' :: sep).intercalate ((next :: items).map Prod.fst) ++
          (tail ++ s.closing :: rest)))) := fun c hc => .inr (.inl (by simpa using hc.symm))
      rw [List.append_assoc, List.append_assoc, List.cons_append,
        hitem.next (by omega) hroom hcomma (skip_cons (by rfl) _), skip_append hsep, hstarts.skip, hnext]
      rfl

end Sequence

/-! ## Layouts -/

/-- A layout that puts only blanks behind its commas and colons. -/
structure Style.Laid (style : Style) : Prop where
  comma : ∃ n, style.comma = ',' :: List.replicate n ' '
  colon : ∃ n, style.colon = ':' :: List.replicate n ' '

/-- The compact style is laid out. -/
theorem laid_compact : Style.compact.Laid := ⟨⟨0, rfl⟩, ⟨0, rfl⟩⟩

/-- The style of one line is laid out. -/
theorem laid_line : Style.line.Laid := ⟨⟨1, rfl⟩, ⟨1, rfl⟩⟩

/-- The style of many lines is laid out. -/
theorem laid_lines : Style.lines.Laid := ⟨⟨0, rfl⟩, ⟨1, rfl⟩⟩

/-- Spaces are blank. -/
theorem blank_spaces (n : Nat) : Blank (List.replicate n ' ') := fun c hc => by
  rw [List.eq_of_mem_replicate hc]
  rfl

/-- Every style has spaces. -/
theorem has_spaces (style : Style) (n : Nat) : ∀ c ∈ List.replicate n ' ', style.Has c := fun c hc => by
  rw [List.eq_of_mem_replicate hc]
  exact .inl (by decide)

/-- A break is blank. -/
theorem blank_break (style : Style) (level : Nat) : Blank (style.break level) := by
  unfold Style.break
  split
  · exact List.forall_mem_cons.mpr ⟨rfl, blank_spaces _⟩
  · exact nofun

/-- A style has its own breaks. -/
theorem has_break (style : Style) (level : Nat) : ∀ c ∈ style.break level, style.Has c := by
  unfold Style.break
  split
  · rename_i n hindent
    exact List.forall_mem_cons.mpr ⟨.inr ⟨rfl, by simp [hindent]⟩, has_spaces style _⟩
  · exact nofun

section

variable {style : Style} (hlaid : style.Laid) {α : Type} {s : Sequence α} {depth : Nat} {items : List (List Char × α)}
include hlaid

/-- A group is its items between brackets, with breaks inside and commas between. -/
theorem group_eq {texts : List (List Char)} (hne : texts ≠ []) (level : Nat) (opening closing : Char) :
    ∃ sep, Blank sep ∧ (∀ c ∈ sep, style.Has c) ∧ style.group level opening closing texts =
      opening :: (style.break (level + 1) ++ ((',' :: sep).intercalate texts ++ (style.break level ++ [closing]))) := by
  obtain ⟨n, hcomma⟩ := hlaid.comma
  refine ⟨List.replicate n ' ' ++ style.break (level + 1), List.forall_mem_append.mpr ⟨blank_spaces n, blank_break style _⟩,
    List.forall_mem_append.mpr ⟨has_spaces style n, has_break style _⟩, ?_⟩
  have hempty : texts.isEmpty = false := List.isEmpty_eq_false_iff.mpr hne
  simp [Style.group, hempty, hcomma]

/-- Items that are taken, laid out between their brackets, read as what the reader makes of them. -/
theorem readsAs_group (hitems : ∀ item ∈ items, s.Takes depth item.1 item.2)
    (hchars : ∀ item ∈ items, ∀ c ∈ item.1, style.Has c) (level : Nat) :
    ReadsAs style (depth + 1) (style.group level s.opening s.closing (items.map Prod.fst)) (s.value (items.map Prod.snd)) := by
  have hbrackets : style.Has s.opening ∧ style.Has s.closing := ⟨.inl s.printable.1, .inl s.printable.2⟩
  have hstarts : ∀ cs, Starts (s.opening :: cs) := fun cs => ⟨s.opening, cs, rfl, s.starts⟩
  by_cases hne : items = []
  · subst hne
    change ReadsAs style (depth + 1) [s.opening, s.closing] (s.value [])
    refine .of_succ (hstarts _) (by simpa using hbrackets) ?_
    intro fuel room rest _ hroom _
    obtain ⟨room, rfl⟩ : ∃ n, room = n + 1 := Nat.exists_eq_add_one_of_ne_zero (by omega)
    exact s.reads_nil fuel room rest
  · obtain ⟨sep, hblank, hsep, hgroup⟩ :=
      group_eq hlaid (mt List.map_eq_nil_iff.mp hne : items.map Prod.fst ≠ []) level s.opening s.closing
    rw [hgroup]
    refine .of_succ (hstarts _) ?_ ?_
    · simp only [List.forall_mem_cons, List.forall_mem_append]
      refine ⟨hbrackets.1, has_break style _, ?_, has_break style _, hbrackets.2, nofun⟩
      intro c hc
      rcases mem_of_mem_intercalate hc with hc | ⟨text, htext, hc⟩
      · rcases List.mem_cons.mp hc with rfl | hc
        · exact .inl (by decide)
        · exact hsep c hc
      · obtain ⟨item, hitem, rfl⟩ := List.mem_map.mp htext
        exact hchars item hitem c hc
    · intro fuel room rest hfuel hroom _
      simp only [List.length_cons, List.length_append] at hfuel
      obtain ⟨room, rfl⟩ : ∃ n, room = n + 1 := Nat.exists_eq_add_one_of_ne_zero (by omega)
      have hread := Sequence.reads_sequence hne hitems hblank (blank_break style level) (by omega : _ < fuel)
        (by omega : depth ≤ room) rest
      obtain ⟨c, cs, hcs, hspace, hclosing⟩ := Sequence.starts_items hne hitems (',' :: sep)
      have hskip : skip (style.break (level + 1) ++ (((',' :: sep).intercalate (items.map Prod.fst)) ++
          (style.break level ++ [s.closing])) ++ rest) = c :: (cs ++ (style.break level ++ s.closing :: rest)) := by
        rw [hcs, List.append_assoc, skip_append (blank_break style _), List.cons_append, List.cons_append, skip_cons hspace]
        simp
      have hc : c ≠ s.closing := by
        rcases s.ends with h | h <;> rw [h]
        · exact hclosing.1
        · exact hclosing.2
      rw [hcs, List.cons_append] at hread
      rw [List.cons_append, s.reads_items fuel room hskip hc, hread]
      rfl

/-- A list of texts that read as values reads as the list of these. -/
theorem readsAs_list {items : List (List Char × Value)} (hitems : ∀ item ∈ items, ReadsAs style depth item.1 item.2)
    (level : Nat) : ReadsAs style (depth + 1) (style.group level '[' ']' (items.map Prod.fst)) (.list (items.map Prod.snd)) := by
  refine readsAs_group (s := listSequence) hlaid (fun item hitem => ?_) (fun item hitem => (hitems item hitem).chars) level
  have hreads := (hitems item hitem).reads
  refine ⟨(hitems item hitem).starts, fun hfuel hroom hends hskip => ?_, fun hfuel hroom hends hskip => ?_⟩
  · change readItems _ _ _ = _
    rw [readItems, hreads _ _ _ hfuel hroom hends]
    simp only [hskip]
    rfl
  · change readItems _ _ _ = (readItems _ _ _).map _
    rw [readItems, hreads _ _ _ hfuel hroom hends]
    simp only [hskip]

end

/-- A member of an object: the code points of its key as they are written, the text of its value, and what that reads as. -/
structure Member where
  key : List Nat
  text : List Char
  value : Value

namespace Member

/-- The member as an entry of a dictionary. -/
def entry (m : Member) : Value × Value := (.text ⟨readBackCodes m.key⟩, m.value)

/-- The text of a member. -/
def item (style : Style) (m : Member) : List Char := writeCodes m.key ++ style.colon ++ m.text

end Member

section

variable {style : Style} (hlaid : style.Laid) {depth : Nat} {m : Member} (hm : ReadsAs style depth m.text m.value)
include hlaid hm

/-- The key and the colon are read, and then the value; behind it the object ends or the next member is due. -/
theorem readMembers_item {fuel room : Nat} {more : List Char} (hfuel : 2 * (m.item style).length ≤ fuel) (hroom : depth ≤ room)
    (hends : Ends more) : readMembers (fuel + 1) room (m.item style ++ more) =
      match skip more with
      | '\x7d' :: rest => .ok ([m.entry], rest)
      | ',' :: rest => (readMembers fuel room (skip rest)).map fun (entries, rest) => (m.entry :: entries, rest)
      | rest => .error ⟨.comma, rest.length⟩ := by
  obtain ⟨n, hcolon⟩ := hlaid.colon
  have hitem : m.item style ++ more =
      '"' :: (m.key.flatMap escapeChar ++ '"' :: (':' :: (List.replicate n ' ' ++ (m.text ++ more)))) := by
    simp [Member.item, writeCodes, hcolon]
  have hlength : m.text.length ≤ (m.item style).length := by
    simp only [Member.item, List.length_append]
    omega
  rw [hitem, readMembers, readChars_codes]
  simp only [skip_cons (show isSpace ':' = false from rfl), skip_append (blank_spaces n), hm.starts.skip,
    hm.reads fuel room more (by omega) hroom hends]
  rfl

/-- A member is taken as its entry. -/
theorem takes_item : objectSequence.Takes depth (m.item style) m.entry := by
  refine ⟨⟨'"', _, rfl, rfl, by decide, by decide⟩, fun hfuel hroom hends hskip => ?_, fun hfuel hroom hends hskip => ?_⟩
  · refine (readMembers_item hlaid hm hfuel hroom hends).trans ?_
    simp only [hskip]
    rfl
  · refine (readMembers_item hlaid hm hfuel hroom hends).trans ?_
    simp only [hskip]
    rfl

/-- A member is written in its style. -/
theorem has_item : ∀ c ∈ m.item style, style.Has c := by
  obtain ⟨n, hcolon⟩ := hlaid.colon
  simp only [Member.item, hcolon, List.forall_mem_append, List.forall_mem_cons]
  exact ⟨⟨fun c hc => .inl (printable_writeCodes m.key c hc), .inl (by decide), has_spaces style n⟩, hm.chars⟩

end

/-- An object of members whose texts read as their values reads as the dictionary of these. -/
theorem readsAs_object {style : Style} (hlaid : style.Laid) {depth : Nat} {ms : List Member}
    (hms : ∀ m ∈ ms, ReadsAs style depth m.text m.value) (level : Nat) :
    ReadsAs style (depth + 1) (style.group level '\x7b' '\x7d' (ms.map (Member.item style)))
      (.dict (Value.ofEntries (ms.map Member.entry))) := by
  have htakes : ∀ item ∈ ms.map (fun m => (m.item style, m.entry)), objectSequence.Takes depth item.1 item.2 :=
    List.forall_mem_map.mpr fun m hm => takes_item hlaid (hms m hm)
  have hchars : ∀ item ∈ ms.map (fun m => (m.item style, m.entry)), ∀ c ∈ item.1, style.Has c :=
    List.forall_mem_map.mpr fun m hm => has_item hlaid (hms m hm)
  have hgroup := readsAs_group hlaid htakes hchars level
  rw [List.map_map, List.map_map] at hgroup
  exact hgroup

end Json

end WordSlot
