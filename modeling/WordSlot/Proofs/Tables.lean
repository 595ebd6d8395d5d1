import WordSlot.Proofs.Signatures

/-!
# Dispatch tables lose nothing

The methods of a manifest and its dispatch table hold every declared method once, in the order of the manifest, or are not made
at all. Two loops make them, and each stops at the first method that it cannot enter: a name that has come before, a selector that
another method has, or a name without bytes, which has no selector. Looking up a name that no method has tells all the names there
are, in ascending order.
-/

namespace WordSlot

open Outcome

/-- A text that holds a half of a surrogate pair, so that it has no bytes. -/
def Text.HasHalf (t : Text) : Prop := ∃ code ∈ t.codes, isScalar code = false

namespace Text

/-- A text without characters has a half of a pair. -/
theorem chars?_eq_none_iff {t : Text} : t.chars? = none ↔ t.HasHalf := by
  simp [chars?, HasHalf]

/-- A half stands in one of two texts. -/
theorem hasHalf_append {s t : Text} : (s ++ t).HasHalf ↔ s.HasHalf ∨ t.HasHalf := by
  have hcodes : (s ++ t).codes = s.codes ++ t.codes := rfl
  simp only [HasHalf, hcodes, List.mem_append, or_and_right, exists_or]

/-- No half stands in a string. -/
theorem not_hasHalf_ofString (s : String) : ¬ (ofString s).HasHalf := by
  intro h
  have hchars : (ofString s).chars? = some s.toList := chars?_eq_some_iff.mpr rfl
  rw [chars?_eq_none_iff.mpr h] at hchars
  cases hchars

end Text

namespace Method

/-- Only a half of a surrogate pair in the name keeps a method from having a selector. -/
theorem selector_eq_error_iff {m : Method} : m.selector = .error (.misuse .unpairedHalf) ↔ m.name.HasHalf := by
  have hsignature : (selectorDomain ++ m.signature : Text).HasHalf ↔ m.name.HasHalf := by
    simp only [Method.signature, signatureOf, Text.hasHalf_append, Text.not_hasHalf_ofString, or_false, false_or]
  rw [← hsignature, ← Text.chars?_eq_none_iff, selector, WordSlot.selector, Utf8.encodeText?]
  cases (selectorDomain ++ m.signature : Text).chars? with
  | none => simp
  | some cs => simp

end Method

namespace Manifest

/-- A manifest declares entries: its call surface is a dictionary whose functions are a list of them. -/
def Declares (manifest : Value) (es : List Value) : Prop :=
  ∃ fields surface, manifest = .dict fields ∧ Value.field? "abi" fields = some (.dict surface) ∧
    Value.field? "functions" surface = some (.list es)

/-- The entries that a manifest declares are found. -/
theorem Declares.entries {manifest : Value} {es : List Value} (h : Declares manifest es) :
    Manifest.entries manifest = .ok es := by
  obtain ⟨fields, surface, rfl, habi, hfunctions⟩ := h
  have hholds : (Value.dict surface).holds = true := by
    cases surface with
    | nil => cases hfunctions
    | cons entry rest => rfl
  simp only [Manifest.entries, habi, Option.getD_some, hholds, if_true, hfunctions]
  rfl

/-- Adds the method of one entry to those known. -/
def enter (known : List Method) (entry : Value) : Except Fault (List Method) := do
  let m ← Method.ofEntry entry
  if known.any (·.name == m.name) then throw (.abi (.duplicateFunction m.name)) else pure (known ++ [m])

/-- Entries are collected one after another. -/
theorem collect_eq_foldlM (known : List Method) (entries : List Value) : collect known entries = entries.foldlM enter known := by
  induction entries generalizing known with
  | nil => rfl
  | cons entry entries ih =>
    simp only [collect, List.foldlM_cons, enter, bind_assoc]
    congr 1
    funext m
    cases known.any (·.name == m.name) with
    | true => rfl
    | false => exact ih _

/-- Entries that convert are refused at the first whose name has come before. -/
theorem collect_eq_error {es : List Value} {fs : List Method} {e : Fault} (hfs : es.mapM Method.ofEntry = .ok fs)
    (h : collect [] es = .error e) : ∃ f ∈ fs, e = .abi (.duplicateFunction f.name) := by
  rw [collect_eq_foldlM, foldlM_eq_error_iff] at h
  obtain ⟨before, entry, after, known, rfl, -, hentry⟩ := h
  rw [List.mapM_append, bind_eq_ok] at hfs
  obtain ⟨fbefore, -, hfs⟩ := hfs
  simp only [List.mapM_cons, bind_eq_ok, pure_eq_ok, Except.ok.injEq] at hfs
  obtain ⟨_, ⟨f, hf, fafter, -, rfl⟩, rfl⟩ := hfs
  rw [enter, hf, ok_bind] at hentry
  split at hentry
  · cases hentry
    exact ⟨f, by simp, rfl⟩
  · cases hentry

/-- Sorting names only reorders them. -/
theorem sortedNames_perm (ms : List Method) : (sortedNames ms).Perm (ms.map (·.name)) := List.mergeSort_perm _ _

/-- Distinct names are sorted in strictly ascending order of their code points. -/
theorem sortedNames_ascending {ms : List Method} (h : (ms.map (·.name)).Nodup) :
    (sortedNames ms).Pairwise fun a b => List.Lex (· < ·) a.codes b.codes := by
  have hsorted : (sortedNames ms).Pairwise fun a b => a.notAfter b = true := by
    refine List.pairwise_mergeSort ?_ Text.notAfter_total _
    intro a b c hab hbc
    exact Text.notAfter_trans hab hbc
  have hnodup : (sortedNames ms).Pairwise (· ≠ ·) := (sortedNames_perm ms).nodup_iff.mpr h
  refine (hsorted.and hnodup).imp ?_
  rintro a b ⟨hab, hne⟩
  by_contra hnot
  exact hne (Text.notAfter_antisymm hab (decide_eq_true hnot))

/-- A name that no method has is refused with all the names there are. -/
theorem lookup_of_not_mem {manifest : Value} {ms : List Method} (h : methods manifest = .ok ms) {x : Text}
    (hx : x ∉ ms.map (·.name)) :
    lookup manifest (.text x) = .error (.abi (.unknownFunction (quote x) (sortedNames ms))) := by
  have hfind : find? ms (.text x) = none := by
    refine List.find?_eq_none.mpr fun m hm hname => hx ?_
    rw [← beq_iff_eq.mp hname]
    exact List.mem_map_of_mem hm
  rw [lookup, h, ok_bind, hfind]
  rfl

end Manifest

/-! ## Tables -/

/-- The selectors of methods, which are distinct. -/
def DistinctSelectors (fs : List Method) (sels : List Bytes) : Prop :=
  List.Forall₂ (fun f sel => f.selector = .ok sel) fs sels ∧ sels.Nodup

namespace DispatchTable

/-- A table holds methods: each of them once, in their order, under its own selector. -/
structure Holds (table : DispatchTable) (fs : List Method) : Prop where
  inOrder : table.map (·.2) = fs
  underSelector : ∀ entry ∈ table, entry.2.selector = .ok entry.1
  found : ∀ f ∈ fs, ∃ sel, f.selector = .ok sel ∧ table.lookup sel = some f

/-- A table is made exactly of methods with distinct selectors. -/
theorem ofMethods_iff {fs : List Method} {table : DispatchTable} :
    ofMethods fs = .ok table ↔ ∃ sels, DistinctSelectors fs sels ∧ table = sels.zip fs := by
  simp only [ofMethods_eq_ok_iff, mapM_eq_ok_iff, DistinctSelectors, and_assoc]

/-- A table holds the methods that it is made of. -/
theorem holds_of_ofMethods {fs : List Method} {table : DispatchTable} (h : ofMethods fs = .ok table) : table.Holds fs := by
  obtain ⟨sels, ⟨hsels, hnd⟩, rfl⟩ := ofMethods_iff.mp h
  have hkeys : ((sels.zip fs).map (·.1)).Nodup := by
    rwa [← List.unzip_fst, List.unzip_zip_left hsels.length_eq.ge]
  have hmethods : (sels.zip fs).map (·.2) = fs := by
    rw [← List.unzip_snd, List.unzip_zip_right hsels.length_eq.le]
  have hselector : ∀ entry ∈ sels.zip fs, entry.2.selector = .ok entry.1 := by
    rintro ⟨sel, f⟩ hentry
    exact ((ofMethods_lookup_iff h).mp ((lookup_eq_some_iff_mem hkeys).mpr hentry)).2
  refine ⟨hmethods, hselector, ?_⟩
  intro f hf
  rw [← hmethods] at hf
  obtain ⟨⟨sel, f⟩, hentry, rfl⟩ := List.mem_map.mp hf
  exact ⟨sel, hselector _ hentry, (lookup_eq_some_iff_mem hkeys).mpr hentry⟩

/-- Making a table of methods fails for a collision, or at a method whose name has no bytes. -/
theorem ofMethods_error {fs : List Method} {e : Fault} (h : ofMethods fs = .error e) :
    (∃ g, e = .abi g) ∨ e = .misuse .unpairedHalf := by
  obtain ⟨before, f, after, sels, -, -, -, hf | ⟨_, -, g, -, -, rfl⟩⟩ := ofMethods_eq_error_iff.mp h
  · exact .inr (selector_eq_error hf)
  · exact .inl ⟨_, rfl⟩

/-- A name without bytes is the fault exactly if the methods before it have distinct selectors. -/
theorem ofMethods_unpaired_iff {fs : List Method} :
    ofMethods fs = .error (.misuse .unpairedHalf) ↔
      ∃ before f after sels, fs = before ++ f :: after ∧ DistinctSelectors before sels ∧ f.name.HasHalf := by
  rw [ofMethods_eq_error_iff]
  constructor
  · rintro ⟨before, f, after, sels, hsplit, hsels, hnd, hf | ⟨_, -, g, -, -, ⟨⟩⟩⟩
    exact ⟨before, f, after, sels, hsplit, ⟨mapM_eq_ok_iff.mp hsels, hnd⟩, Method.selector_eq_error_iff.mp hf⟩
  · rintro ⟨before, f, after, sels, hsplit, ⟨hsels, hnd⟩, hf⟩
    exact ⟨before, f, after, sels, hsplit, mapM_eq_ok_iff.mpr hsels, hnd, .inl (Method.selector_eq_error_iff.mpr hf)⟩

end DispatchTable

/-! ## Manifests whose entries convert -/

namespace Manifest

variable {manifest : Value} {es : List Value} {fs : List Method}

/-- The methods are given exactly if their names are distinct, and none is lost. -/
theorem methods_iff_nodup (hentries : entries manifest = .ok es) (hfs : es.mapM Method.ofEntry = .ok fs) (ms : List Method) :
    methods manifest = .ok ms ↔ (fs.map (·.name)).Nodup ∧ ms = fs := by
  rw [methods_eq_ok_iff]
  constructor
  · rintro ⟨es', hes', hms, hnd⟩
    cases hentries.symm.trans hes'
    cases hfs.symm.trans hms
    exact ⟨hnd, rfl⟩
  · rintro ⟨hnd, rfl⟩
    exact ⟨es, hentries, hfs, hnd⟩

/-- A name that comes twice is a call fault, and the same one in whatever is asked of the manifest. -/
theorem refused_of_not_nodup (hentries : entries manifest = .ok es) (hfs : es.mapM Method.ofEntry = .ok fs)
    (hnd : ¬ (fs.map (·.name)).Nodup) :
    ∃ g, methods manifest = .error (.abi g) ∧ Manifest.table manifest = .error (.abi g) ∧
      ∀ x : Text, lookup manifest (.text x) = .error (.abi g) := by
  cases hm : methods manifest with
  | ok ms => exact absurd ((methods_iff_nodup hentries hfs ms).mp hm).1 hnd
  | error e =>
    have hcollect : collect [] es = .error e := by rwa [methods, hentries, ok_bind] at hm
    obtain ⟨f, -, rfl⟩ := collect_eq_error hfs hcollect
    exact ⟨_, rfl, by rw [Manifest.table, hm, error_bind], fun x => by rw [lookup, hm, error_bind]⟩

end Manifest

/-- Dispatch tables lose and duplicate nothing, for every manifest that declares a list of entries which each convert. The methods
are given exactly if their names are distinct, and then they are the converted entries in their order. The table is given exactly
if moreover each has a selector and these are distinct; it then holds each of them once, in their order, under its own selector,
and looking up its name leads to it. Names that are not distinct are a call fault, in whatever is asked. Otherwise a table that is
not given is a call fault, except at a name that holds a half of a surrogate pair, if the methods before it have distinct selectors:
it has no bytes to digest. A name that no method has is a call fault that tells all the names, in ascending order. -/
theorem dispatch_tables_lose_nothing (manifest : Value) (es : List Value) (fs : List Method)
    (declares : Manifest.Declares manifest es) (converts : List.Forall₂ (fun e f => Method.ofEntry e = .ok f) es fs) :
    (∀ ms, Manifest.methods manifest = .ok ms ↔ (fs.map (·.name)).Nodup ∧ ms = fs) ∧
    (∀ table, Manifest.table manifest = .ok table ↔
      (fs.map (·.name)).Nodup ∧ ∃ sels, DistinctSelectors fs sels ∧ table = sels.zip fs) ∧
    (∀ table, Manifest.table manifest = .ok table →
      table.length = es.length ∧ table.Holds fs ∧ ∀ f ∈ fs, Manifest.lookup manifest (.text f.name) = .ok f) ∧
    (¬ (fs.map (·.name)).Nodup →
      ∃ g, Manifest.methods manifest = .error (.abi g) ∧ Manifest.table manifest = .error (.abi g) ∧
        ∀ x : Text, Manifest.lookup manifest (.text x) = .error (.abi g)) ∧
    (∀ e, Manifest.table manifest = .error e → (∃ g, e = .abi g) ∨ e = .misuse .unpairedHalf) ∧
    (Manifest.table manifest = .error (.misuse .unpairedHalf) ↔
      (fs.map (·.name)).Nodup ∧
        ∃ before f after sels, fs = before ++ f :: after ∧ DistinctSelectors before sels ∧ f.name.HasHalf) ∧
    ((fs.map (·.name)).Nodup → ∀ x : Text, x ∉ fs.map (·.name) →
      ∃ (g : AbiFault) (known : List Text), Manifest.lookup manifest (.text x) = .error (.abi g) ∧
        g.context = [(("known" : Text), Value.list (known.map .text))] ∧
        known.Perm (fs.map (·.name)) ∧ known.Pairwise fun a b => List.Lex (· < ·) a.codes b.codes) := by
  have hentries := declares.entries
  have hfs : es.mapM Method.ofEntry = .ok fs := mapM_eq_ok_iff.mpr converts
  have hmethods := Manifest.methods_iff_nodup hentries hfs
  have hrefused := Manifest.refused_of_not_nodup hentries hfs
  have hgiven : (fs.map (·.name)).Nodup → Manifest.methods manifest = .ok fs := fun hnd => (hmethods fs).mpr ⟨hnd, rfl⟩
  have htable : (fs.map (·.name)).Nodup → Manifest.table manifest = DispatchTable.ofMethods fs := by
    intro hnd
    rw [Manifest.table, hgiven hnd, ok_bind]
  have hnames : ∀ {table}, Manifest.table manifest = .ok table → (fs.map (·.name)).Nodup := by
    intro table h
    obtain ⟨ms, hms, -⟩ := bind_eq_ok.mp h
    exact ((hmethods ms).mp hms).1
  refine ⟨hmethods, fun table => ⟨fun h => ?_, ?_⟩, fun table h => ?_, hrefused, fun e h => ?_, ⟨fun h => ?_, ?_⟩, ?_⟩
  · have hnd := hnames h
    rw [htable hnd, DispatchTable.ofMethods_iff] at h
    exact ⟨hnd, h⟩
  · rintro ⟨hnd, h⟩
    rw [htable hnd, DispatchTable.ofMethods_iff]
    exact h
  · have hnd := hnames h
    rw [htable hnd] at h
    have hholds := DispatchTable.holds_of_ofMethods h
    refine ⟨?_, hholds, fun f hf => Manifest.lookup_eq_ok_iff.mpr ⟨fs, hgiven hnd, hf, rfl⟩⟩
    rw [← List.length_map (·.2), hholds.inOrder, converts.length_eq]
  · by_cases hnd : (fs.map (·.name)).Nodup
    · rw [htable hnd] at h
      exact DispatchTable.ofMethods_error h
    · obtain ⟨g, -, hg, -⟩ := hrefused hnd
      rw [hg] at h
      cases h
      exact .inl ⟨g, rfl⟩
  · by_cases hnd : (fs.map (·.name)).Nodup
    · rw [htable hnd, DispatchTable.ofMethods_unpaired_iff] at h
      exact ⟨hnd, h⟩
    · obtain ⟨g, -, hg, -⟩ := hrefused hnd
      rw [hg] at h
      cases h
  · rintro ⟨hnd, h⟩
    rw [htable hnd, DispatchTable.ofMethods_unpaired_iff]
    exact h
  · intro hnd x hx
    exact ⟨_, _, Manifest.lookup_of_not_mem (hgiven hnd) hx, rfl, Manifest.sortedNames_perm fs,
      Manifest.sortedNames_ascending hnd⟩

/-- The law at the slot's own manifest. -/
theorem dispatch_tables_lose_nothing_of_slot :
    ∃ es, Manifest.Declares Manifest.packaged es ∧
      List.Forall₂ (fun e f => Method.ofEntry e = .ok f) es [Manifest.setter, Manifest.getter] ∧
      (∃ table, Manifest.table Manifest.packaged = .ok table ∧ table.length = 2 ∧
        table.Holds [Manifest.setter, Manifest.getter] ∧
        Manifest.lookup Manifest.packaged (.text "get") = .ok Manifest.getter) ∧
      ∃ (g : AbiFault) (known : List Text), Manifest.lookup Manifest.packaged (.text "put") = .error (.abi g) ∧
        g.context = [(("known" : Text), Value.list (known.map .text))] ∧ known.Perm ["set", "get"] := by
  obtain ⟨es, hdeclares, hconverts⟩ : ∃ es, Manifest.Declares Manifest.packaged es ∧
      List.Forall₂ (fun e f => Method.ofEntry e = .ok f) es [Manifest.setter, Manifest.getter] :=
    ⟨_, ⟨_, _, rfl, rfl, rfl⟩, .cons rfl (.cons rfl .nil)⟩
  obtain ⟨-, -, hgiven, -, -, -, hunknown⟩ := dispatch_tables_lose_nothing Manifest.packaged _ _ hdeclares hconverts
  obtain ⟨hlength, hholds, hlookup⟩ := hgiven _ Manifest.packaged_table
  obtain ⟨g, known, hput, hcontext, hperm, -⟩ := hunknown (by decide) "put" (by decide)
  refine ⟨es, hdeclares, hconverts, ⟨_, Manifest.packaged_table, ?_, hholds, hlookup Manifest.getter (by simp)⟩, ?_⟩
  · rw [hlength, hconverts.length_eq]
    rfl
  · exact ⟨g, known, hput, hcontext, hperm⟩

/-- A table can fail with no call fault: the only name is a half of a surrogate pair, which has no selector. And a name that no
method has can be refused without the names there are: one of them comes twice. -/
theorem dispatch_table_fails_at_half :
    let entry (name : Text) : Value := .record [("name", .text name)]
    let manifest (es : List Value) : Value := .record [("abi", .record [("functions", .list es)])]
    let half : Text := ⟨[0xd800]⟩
    (Manifest.Declares (manifest [entry half]) [entry half] ∧ Method.ofEntry (entry half) = .ok (.named half) ∧
      Manifest.table (manifest [entry half]) = .error (.misuse .unpairedHalf)) ∧
    Manifest.Declares (manifest [entry "a", entry "a"]) [entry "a", entry "a"] ∧ Method.ofEntry (entry "a") = .ok (.named "a") ∧
      Manifest.lookup (manifest [entry "a", entry "a"]) (.text "x") = .error (.abi (.duplicateFunction "a")) ∧
      (AbiFault.duplicateFunction "a").context = [] :=
  ⟨⟨⟨_, _, rfl, rfl, rfl⟩, rfl, rfl⟩, ⟨_, _, rfl, rfl, rfl⟩, rfl, rfl, rfl⟩

end WordSlot
