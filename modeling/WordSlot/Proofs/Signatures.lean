import WordSlot.Proofs.Dispatch
import WordSlot.Proofs.Texts
import WordSlot.Proofs.Utf8

/-!
# Signatures tell methods apart

A signature tells the name and the input types that it was made of. A name may hold anything, also parentheses, commas and the
names of types, but what stands behind it holds no opening parenthesis, so the last one of a signature ends the name; and names of
types hold no comma. So methods of different names never meet in a dispatch table for their signatures, only for the digests of
these.
-/

namespace WordSlot

open Outcome

/-! ## The text of a signature -/

/-- Different numbers have different decimals. -/
theorem decimalNat_injective : Function.Injective decimalNat := by
  intro m n h
  have hdigits : Nat.toDigits 10 m = Nat.toDigits 10 n := String.ofList_injective h
  rw [← Nat.ofDigitChars_toDigits (b := 10) (n := m) (by decide) (by decide), hdigits,
    Nat.ofDigitChars_toDigits (by decide) (by decide)]

namespace UIntType

/-- The name of a type is its kind and its bits. -/
theorem toList_name (t : UIntType) : t.name.toList = ['u', 'i', 'n', 't'] ++ Nat.toDigits 10 t.bits := by
  simp [name, decimalNat]

/-- Different types have different names. -/
theorem name_injective : Function.Injective name := by
  intro t u h
  have hbits : t.bits = u.bits := by
    have hlist := congrArg String.toList h
    rw [toList_name, toList_name, List.append_cancel_left_eq] at hlist
    exact decimalNat_injective (congrArg String.ofList hlist)
  cases t
  cases u
  cases hbits
  rfl

/-- The name of a type is letters and digits. -/
theorem isAlphanum_of_mem_name {t : UIntType} {c : Char} (h : c ∈ t.name.toList) : c.isAlphanum = true := by
  rw [toList_name, List.mem_append] at h
  rcases h with h | h
  · simp only [List.mem_cons, List.not_mem_nil, or_false] at h
    rcases h with rfl | rfl | rfl | rfl <;> decide
  · have hdigit := Nat.isDigit_of_mem_toDigits (by decide) (by decide) h
    rw [Char.isAlphanum, hdigit, Bool.or_true]

end UIntType

/-- The names of types with commas between them, as characters. -/
def typeList (types : List UIntType) : List Char := [','].intercalate (types.map fun t => t.name.toList)

/-- A list of types is told by their names with commas between them. -/
theorem typeList_injective : Function.Injective typeList := by
  have hitems : ∀ (types : List UIntType), ∀ x ∈ types.map (fun t => t.name.toList), x ≠ [] ∧ ',' ∉ x := by
    intro types x hx
    obtain ⟨t, -, rfl⟩ := List.mem_map.mp hx
    refine ⟨by simp [UIntType.toList_name], fun hcomma => ?_⟩
    exact absurd (UIntType.isAlphanum_of_mem_name hcomma) (by decide)
  intro ts us h
  have hnames := intercalate_injective (hitems ts) (hitems us) h
  exact List.map_injective_iff.mpr (fun t u htu => UIntType.name_injective (String.toList_injective htu)) hnames

/-- No parenthesis opens in a list of types. -/
theorem not_mem_typeList (types : List UIntType) : '(' ∉ typeList types := by
  intro h
  rcases mem_of_mem_intercalate h with h | ⟨x, hx, h⟩
  · exact absurd h (by decide)
  · obtain ⟨t, -, rfl⟩ := List.mem_map.mp hx
    exact absurd (UIntType.isAlphanum_of_mem_name h) (by decide)

/-- A signature is a name, and types in parentheses. -/
theorem codes_signatureOf (name : Text) (types : List UIntType) :
    (signatureOf name types).codes = name.codes ++ '('.toNat :: (typeList types).map Char.toNat ++ [')'.toNat] := by
  have hjoin : (",".intercalate (types.map UIntType.name)).toList = typeList types := by
    rw [String.toList_intercalate, List.map_map]
    rfl
  have hcodes : (signatureOf name types).codes = name.codes ++ ['('.toNat] ++
      (",".intercalate (types.map UIntType.name)).toList.map Char.toNat ++ [')'.toNat] := rfl
  rw [hcodes, hjoin, List.append_assoc name.codes, List.singleton_append]

/-- A signature tells the name and the types that it was made of. -/
theorem signatureOf_inj {m n : Text} {ts us : List UIntType} : signatureOf m ts = signatureOf n us ↔ m = n ∧ ts = us := by
  constructor
  · intro h
    have hfree : ∀ types : List UIntType, '('.toNat ∉ (typeList types).map Char.toNat := by
      intro types hmem
      obtain ⟨c, hc, hparen⟩ := List.mem_map.mp hmem
      rw [Char.toNat_inj.mp hparen] at hc
      exact not_mem_typeList types hc
    have hcodes := congrArg Text.codes h
    rw [codes_signatureOf, codes_signatureOf, List.append_cancel_right_eq,
      append_cons_inj_of_notMem_right (hfree ts) (hfree us)] at hcodes
    obtain ⟨hname, htypes⟩ := hcodes
    have hchars := List.map_injective_iff.mpr (fun _ _ => Char.toNat_inj.mp) htypes
    exact ⟨Text.codes_inj.mp hname, typeList_injective hchars⟩
  · rintro ⟨rfl, rfl⟩
    rfl

/-! ## Tables that cannot be made -/

/-- A signature without halves of surrogate pairs has the first bytes of its digest for a selector. -/
theorem selector_eq_ok_iff {signature : Text} {sel : Bytes} :
    selector signature = .ok sel ↔
      ∃ b, Utf8.encodeText? (selectorDomain ++ signature) = some b ∧ (Digest.sha3 b).take selectorBytes = sel := by
  unfold selector
  split
  · rename_i b hb
    simp [hb]
  · rename_i hb
    simp [hb]

/-- A signature has a selector or no bytes to make one of. -/
theorem selector_eq_error {signature : Text} {e : Fault} (h : selector signature = .error e) : e = .misuse .unpairedHalf := by
  unfold selector at h
  split at h
  · cases h
  · cases h
    rfl

namespace DispatchTable

/-- Adds one method to a table. -/
def enter (table : DispatchTable) (m : Method) : Except Fault DispatchTable := do
  let selector ← m.selector
  match table.lookup selector with
  | some other => throw (.abi (.selectorCollision other.signature m.signature))
  | none => pure (table ++ [(selector, m)])

/-- Methods are entered one after another. -/
theorem addAll_eq_foldlM (table : DispatchTable) (ms : List Method) : addAll table ms = ms.foldlM enter table := by
  induction ms generalizing table with
  | nil => rfl
  | cons m ms ih =>
    simp only [addAll, List.foldlM_cons, enter, bind_assoc]
    congr 1
    funext sel
    cases table.lookup sel with
    | some other => rfl
    | none => exact ih _

/-- A method is refused if it has no selector, or if another method has it already. -/
theorem enter_eq_error_iff {table : DispatchTable} {m : Method} {e : Fault} :
    enter table m = .error e ↔ m.selector = .error e ∨
      ∃ sel other, m.selector = .ok sel ∧ table.lookup sel = some other ∧
        e = .abi (.selectorCollision other.signature m.signature) := by
  rw [enter, bind_eq_error]
  refine or_congr_right ⟨?_, ?_⟩
  · rintro ⟨sel, hsel, h⟩
    split at h
    · rename_i other hother
      cases h
      exact ⟨sel, other, hsel, hother, rfl⟩
    · cases h
  · rintro ⟨sel, other, hsel, hother, rfl⟩
    refine ⟨sel, hsel, ?_⟩
    rw [hother]
    rfl

/-- The table of methods is the methods in their order under their selectors, if these are distinct. -/
theorem ofMethods_eq_ok_iff {ms : List Method} {table : DispatchTable} :
    ofMethods ms = .ok table ↔ ∃ sels, ms.mapM Method.selector = .ok sels ∧ sels.Nodup ∧ table = sels.zip ms := by
  have hkeys : ∀ {sels : List Bytes}, ms.mapM Method.selector = .ok sels → (sels.zip ms).map (·.1) = sels := by
    intro sels hsels
    rw [← List.unzip_fst, List.unzip_zip_left (mapM_eq_ok_iff.mp hsels).length_eq.ge]
  rw [ofMethods, addAll_eq_ok_iff (by simp)]
  constructor
  · rintro ⟨sels, hsels, rfl, hnd⟩
    rw [List.nil_append, hkeys hsels] at hnd
    exact ⟨sels, hsels, hnd, rfl⟩
  · rintro ⟨sels, hsels, hnd, rfl⟩
    exact ⟨sels, hsels, rfl, by rwa [hkeys hsels]⟩

/-- No table is made exactly for the first method that has no selector or the selector of one before it. -/
theorem ofMethods_eq_error_iff {ms : List Method} {e : Fault} :
    ofMethods ms = .error e ↔
      ∃ before m after sels, ms = before ++ m :: after ∧ before.mapM Method.selector = .ok sels ∧ sels.Nodup ∧
        (m.selector = .error e ∨ ∃ sel, m.selector = .ok sel ∧ ∃ other ∈ before, other.selector = .ok sel ∧
          e = .abi (.selectorCollision other.signature m.signature)) := by
  have hbegins : ∀ (before : List Method) (table : DispatchTable), before.foldlM enter [] = .ok table ↔
      ofMethods before = .ok table := by
    intro before table
    rw [ofMethods, addAll_eq_foldlM]
  rw [ofMethods, addAll_eq_foldlM, foldlM_eq_error_iff]
  constructor
  · rintro ⟨before, m, after, table, hsplit, htable, hm⟩
    rw [hbegins] at htable
    obtain ⟨sels, hsels, hnd, -⟩ := ofMethods_eq_ok_iff.mp htable
    refine ⟨before, m, after, sels, hsplit, hsels, hnd, ?_⟩
    rcases enter_eq_error_iff.mp hm with hm | ⟨sel, other, hsel, hother, he⟩
    · exact .inl hm
    · obtain ⟨hmem, hother⟩ := (ofMethods_lookup_iff htable).mp hother
      exact .inr ⟨sel, hsel, other, hmem, hother, he⟩
  · rintro ⟨before, m, after, sels, hsplit, hsels, hnd, hm⟩
    have htable := ofMethods_eq_ok_iff.mpr ⟨sels, hsels, hnd, rfl⟩
    refine ⟨before, m, after, _, hsplit, (hbegins _ _).mpr htable, enter_eq_error_iff.mpr ?_⟩
    rcases hm with hm | ⟨sel, hsel, other, hmem, hother, he⟩
    · exact .inl hm
    · exact .inr ⟨sel, other, hsel, (ofMethods_lookup_iff htable).mpr ⟨hmem, hother⟩, he⟩

end DispatchTable

/-- Signatures identify methods: two are the same exactly if the names and the input types are, whatever the names hold. So where
the entries of a manifest convert and have distinct names, a table is refused for a collision only if the signatures of two of its
methods, different texts with different bytes, have digests that begin with the same eight bytes. -/
theorem signatures_identify_methods :
    (∀ f g : Method, f.signature = g.signature ↔ f.name = g.name ∧ f.inputs = g.inputs) ∧
    (∀ (manifest : Value) (es : List Value) (fs : List Method), Manifest.entries manifest = .ok es →
      es.mapM Method.ofEntry = .ok fs → (fs.map (·.name)).Nodup →
      ∀ a b : Text, Manifest.table manifest = .error (.abi (.selectorCollision a b)) →
        (∃ f ∈ fs, f.signature = a) ∧ (∃ g ∈ fs, g.signature = b) ∧ a ≠ b ∧
        ∃ x y, Utf8.encodeText? (selectorDomain ++ a) = some x ∧ Utf8.encodeText? (selectorDomain ++ b) = some y ∧
          x ≠ y ∧ (Digest.sha3 x).take 8 = (Digest.sha3 y).take 8) := by
  have hinj : ∀ f g : Method, f.signature = g.signature ↔ f.name = g.name ∧ f.inputs = g.inputs :=
    fun f g => signatureOf_inj
  refine ⟨hinj, ?_⟩
  intro manifest es fs hes hfs hnames a b htable
  have hmethods : Manifest.methods manifest = .ok fs := Manifest.methods_eq_ok_iff.mpr ⟨es, hes, hfs, hnames⟩
  rw [Manifest.table, hmethods, ok_bind, DispatchTable.ofMethods_eq_error_iff] at htable
  obtain ⟨before, g, after, sels, rfl, -, -, hg | ⟨sel, hsel, f, hf, hfsel, he⟩⟩ := htable
  · -- A selector that does not exist is no collision.
    cases selector_eq_error hg
  · cases he
    have hne : f.signature ≠ g.signature := by
      intro hsame
      rw [List.map_append, List.map_cons, List.nodup_append] at hnames
      exact hnames.2.2 f.name (List.mem_map_of_mem hf) g.name List.mem_cons_self ((hinj f g).mp hsame).1
    obtain ⟨x, hx, hxsel⟩ := selector_eq_ok_iff.mp hfsel
    obtain ⟨y, hy, hysel⟩ := selector_eq_ok_iff.mp hsel
    refine ⟨⟨f, List.mem_append_left _ hf, rfl⟩, ⟨g, by simp, rfl⟩, hne, x, y, hx, hy, ?_, hxsel.trans hysel.symm⟩
    rintro rfl
    have hcodes := congrArg Text.codes (Utf8.eq_of_encodeText? hx hy)
    exact hne (Text.codes_inj.mp (List.append_cancel_left hcodes))

/-- The method of an entry that has nothing but a name. -/
def Method.named (name : Text) : Method := ⟨name, [], [], "nonpayable"⟩

/-- The selector of the first of two names that collide. -/
theorem selector_of_first_colliding_name :
    (Method.named "moiakagepcdhfegio").selector = .ok [121, 13, 71, 78, 200, 60, 242, 136] :=
  toOption_eq_some.mp (by decide +kernel)

/-- The second name has the same selector. -/
theorem selector_of_second_colliding_name :
    (Method.named "mhdodfjcdfpmajlmn").selector = .ok [121, 13, 71, 78, 200, 60, 242, 136] :=
  toOption_eq_some.mp (by decide +kernel)

/-- The law at two names, found by a search, whose signatures have the same selector. -/
theorem signatures_identify_methods_that_collide :
    let es : List Value := [.record [("name", .text "moiakagepcdhfegio")], .record [("name", .text "mhdodfjcdfpmajlmn")]]
    let fs : List Method := [.named "moiakagepcdhfegio", .named "mhdodfjcdfpmajlmn"]
    let manifest : Value := .record [("abi", .record [("functions", .list es)])]
    Manifest.entries manifest = .ok es ∧ es.mapM Method.ofEntry = .ok fs ∧ (fs.map (·.name)).Nodup ∧
      Manifest.table manifest = .error (.abi (.selectorCollision "moiakagepcdhfegio()" "mhdodfjcdfpmajlmn()")) ∧
      ∃ x y, Utf8.encodeText? (selectorDomain ++ ("moiakagepcdhfegio()" : Text)) = some x ∧
        Utf8.encodeText? (selectorDomain ++ ("mhdodfjcdfpmajlmn()" : Text)) = some y ∧
        x ≠ y ∧ (Digest.sha3 x).take 8 = (Digest.sha3 y).take 8 := by
  intro es fs manifest
  have hes : Manifest.entries manifest = .ok es := rfl
  have hfs : es.mapM Method.ofEntry = .ok fs := rfl
  have hnames : (fs.map (·.name)).Nodup := by decide
  have hmethods : Manifest.methods manifest = .ok fs := Manifest.methods_eq_ok_iff.mpr ⟨_, hes, hfs, hnames⟩
  have htable : Manifest.table manifest =
      .error (.abi (.selectorCollision "moiakagepcdhfegio()" "mhdodfjcdfpmajlmn()")) := by
    rw [Manifest.table, hmethods, ok_bind, DispatchTable.ofMethods_eq_error_iff]
    refine ⟨[.named "moiakagepcdhfegio"], .named "mhdodfjcdfpmajlmn", [], _, rfl,
      mapM_eq_ok_iff.mpr (.cons selector_of_first_colliding_name .nil), List.nodup_singleton _, .inr ?_⟩
    exact ⟨_, selector_of_second_colliding_name, _, List.mem_singleton_self _, selector_of_first_colliding_name, rfl⟩
  obtain ⟨-, -, -, hdigests⟩ := signatures_identify_methods.2 manifest es fs hes hfs hnames _ _ htable
  exact ⟨hes, hfs, hnames, htable, hdigests⟩

end WordSlot
