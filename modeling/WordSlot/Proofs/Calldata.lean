import WordSlot.Abi.Calldata
import WordSlot.Proofs.Dispatch
import WordSlot.Proofs.Framing

/-!
# Calldata and calls correspond one to one

Calldata is read as a call exactly when it is the selector of one of the manifest's methods followed by the written form of
numbers that fit its inputs. Since a method has one selector and an argument list has one spelling, encoding a call and
decoding it are inverse to each other, for every manifest that has a dispatch table. Of the digest only its length is used.
-/

namespace WordSlot

open Outcome

/-! ## The length of a selector -/

namespace Digest

/-- Combining rows gives a state. -/
theorem length_combineRows (s : List UInt64) : (combineRows s).length = 25 := by
  simp [combineRows]

/-- Adding a round's constant keeps the number of lanes. -/
theorem length_addConstant (c : UInt64) (s : List UInt64) : (addConstant c s).length = s.length := by
  cases s <;> rfl

/-- A turn of the sponge gives all its lanes, whatever it is given. -/
theorem length_permute (s : List UInt64) : (permute s).length = 25 := by
  simp only [permute, roundConstants, List.foldl_cons, List.foldl_nil, length_addConstant, length_combineRows]

/-- Absorbing a message keeps the number of lanes. -/
theorem length_absorb (blocks : Nat) (m : Bytes) (s : List UInt64) (h : s.length = 25) : (absorb blocks m s).length = 25 := by
  induction blocks generalizing m s with
  | zero => exact h
  | succ blocks ih => exact ih _ _ (length_permute _)

/-- A hash has thirty-two bytes. -/
theorem length_sha3 (m : Bytes) : (sha3 m).length = 32 := by
  have hlanes := length_absorb ((pad m).length / rate) (pad m) (List.replicate 25 0) (by simp)
  have hbytes : ∀ x, (bytesOf x).length = 8 := fun x => by simp [bytesOf]
  simp only [sha3, List.length_take, List.length_flatMap, hbytes, List.map_const', List.sum_replicate, hlanes]
  rfl

end Digest

/-- A selector has as many bytes as it says. -/
theorem Method.length_selector {m : Method} {sel : Bytes} (h : m.selector = .ok sel) : sel.length = selectorBytes := by
  unfold Method.selector WordSlot.selector at h
  split at h
  · simp only [pure_eq_ok, Except.ok.injEq] at h
    rw [← h, List.length_take, Digest.length_sha3]
    rfl
  · simp at h

/-! ## Encoding and decoding -/

namespace Calldata

/-- Encoding gives the selector of the method of that name and the written form of the numbers that the arguments are taken
as. -/
theorem encode_eq_ok_iff {manifest name : Value} {args : List Value} {data : Bytes} :
    encode manifest name (.list args) = .ok data ↔
      ∃ m sel ns, Manifest.lookup manifest name = .ok m ∧ m.selector = .ok sel ∧ m.inputs.length = args.length ∧
        Arguments.coerceAll ((m.inputs.map .type).zip args) = .ok ns ∧ data = sel ++ Arguments.write ns := by
  simp only [encode, bind_eq_ok, Value.parts, Value.parts?, Except.ok.injEq, exists_eq_left', pure_eq_ok,
    Arguments.encode_eq_ok_iff]
  constructor
  · rintro ⟨m, hm, sel, hsel, _, ⟨hlen, ns, hns, rfl⟩, rfl⟩
    exact ⟨m, sel, ns, hm, hsel, hlen, hns, rfl⟩
  · rintro ⟨m, sel, ns, hm, hsel, hlen, hns, rfl⟩
    exact ⟨m, hm, sel, hsel, _, ⟨hlen, ns, hns, rfl⟩, rfl⟩

/-- Decoding takes exactly the selector of a method of the manifest followed by the written form of fitting numbers, within the
size that is allowed. -/
theorem decode_eq_ok_iff {manifest : Value} {table : DispatchTable} (htable : Manifest.table manifest = .ok table)
    {most : Nat} {data : Bytes} {m : Method} {ns : List Nat} :
    decode most manifest data = .ok (m, ns) ↔
      data.length ≤ most ∧ ∃ ms sel, Manifest.methods manifest = .ok ms ∧ m ∈ ms ∧ m.selector = .ok sel ∧
        data = sel ++ Arguments.write ns ∧ List.Forall₂ UIntType.Fits m.inputs ns ∧ m.inputs.length < 2 ^ 70 := by
  unfold decode
  constructor
  · intro h
    split at h
    · simp at h
    · split at h
      · simp at h
      · rename_i hmost hlen
        rw [htable, ok_bind] at h
        split at h
        · simp at h
        · rename_i found hfound
          obtain ⟨⟨args, rest⟩, hread, h⟩ := bind_eq_ok.mp h
          simp only at h
          split at h
          · rename_i hrest
            simp only [pure_eq_ok, Except.ok.injEq, Prod.mk.injEq] at h
            obtain ⟨rfl, rfl⟩ := h
            obtain ⟨ms, hms, hm, hsel⟩ := (Manifest.table_lookup_iff htable).mp hfound
            obtain ⟨hdrop, hfits, hcount⟩ := Arguments.read_eq_ok_iff.mp hread
            rw [List.isEmpty_iff.mp hrest, List.append_nil] at hdrop
            refine ⟨by omega, ms, _, hms, hm, hsel, ?_, hfits, hcount⟩
            rw [← hdrop, List.take_append_drop]
          · simp at h
  · rintro ⟨hmost, ms, sel, hms, hm, hsel, rfl, hfits, hcount⟩
    have hlen := Method.length_selector hsel
    have htake : (sel ++ Arguments.write ns).take selectorBytes = sel := by rw [← hlen, List.take_left]
    have hdrop : (sel ++ Arguments.write ns).drop selectorBytes = Arguments.write ns := by rw [← hlen, List.drop_left]
    have hread : Arguments.read m.inputs (Arguments.write ns) = .ok (ns, []) :=
      Arguments.read_eq_ok_iff.mpr ⟨by simp, hfits, hcount⟩
    rw [if_neg (by omega), if_neg (by rw [List.length_append]; omega), htable, ok_bind, htake, hdrop,
      (Manifest.table_lookup_iff htable).mpr ⟨ms, hms, hm, hsel⟩]
    simp [hread]

/-- Encoding a call and decoding calldata are inverse to each other, for every manifest that has a dispatch table and every
bound on the size. What a call of fewer than `2 ^ 70` arguments is encoded as, if it is within the bound, decodes to the method
of that name and to the number that each argument is taken as at its input's width. What decodes to a call is what the call is
encoded as, so that no two byte strings decode to the same call. -/
theorem calldata_one_to_one (manifest : Value) (table : DispatchTable) (htable : Manifest.table manifest = .ok table)
    (most : Nat) :
    (∀ (name : Value) (args : List Value) (data : Bytes), args.length < 2 ^ 70 →
      Calldata.encode manifest name (.list args) = .ok data → data.length ≤ most →
      ∃ m ns, Manifest.lookup manifest name = .ok m ∧ m.inputs.length = args.length ∧
        ((m.inputs.zip args).mapM fun ta => coerceUInt ta.1.bits ta.2) = .ok ns ∧
        Calldata.decode most manifest data = .ok (m, ns)) ∧
    (∀ (data : Bytes) (m : Method) (ns : List Nat), Calldata.decode most manifest data = .ok (m, ns) →
      Calldata.encode manifest (.text m.name) (.list (ns.map fun (n : Nat) => .int n)) = .ok data) ∧
    (∀ (data data' : Bytes) (m : Method) (ns : List Nat), Calldata.decode most manifest data = .ok (m, ns) →
      Calldata.decode most manifest data' = .ok (m, ns) → data = data') := by
  have hback : ∀ (data : Bytes) (m : Method) (ns : List Nat), Calldata.decode most manifest data = .ok (m, ns) →
      Calldata.encode manifest (.text m.name) (.list (ns.map fun (n : Nat) => .int n)) = .ok data := by
    intro data m ns h
    obtain ⟨-, ms, sel, hms, hm, hsel, hdata, hfits, -⟩ := (decode_eq_ok_iff htable).mp h
    have hfound : Manifest.lookup manifest (.text m.name) = .ok m := Manifest.lookup_eq_ok_iff.mpr ⟨ms, hms, hm, rfl⟩
    exact encode_eq_ok_iff.mpr
      ⟨m, sel, ns, hfound, hsel, by rw [List.length_map, hfits.length_eq], Arguments.coerceAll_ints hfits, hdata⟩
  refine ⟨?_, hback, ?_⟩
  · intro name args data hcount h hmost
    obtain ⟨m, sel, ns, hfound, hsel, hlen, hns, hdata⟩ := encode_eq_ok_iff.mp h
    obtain ⟨ms, hms, hm, -⟩ := Manifest.lookup_eq_ok_iff.mp hfound
    refine ⟨m, ns, hfound, hlen, by rw [← Arguments.coerceAll_types, hns], ?_⟩
    exact (decode_eq_ok_iff htable).mpr
      ⟨hmost, ms, sel, hms, hm, hsel, hdata, Arguments.fits_of_coerceAll hlen hns, by omega⟩
  · intro data data' m ns h h'
    exact Except.ok.inj ((hback data m ns h).symm.trans (hback data' m ns h'))

/-- The law at a call of the slot's own manifest: a numeral in hex is encoded, and its calldata decodes to the number. -/
theorem calldata_one_to_one_set :
    ∃ data, Calldata.encode Manifest.packaged (.text "set") (.list [.text "0x_2A"]) = .ok data ∧ data.length ≤ 1024 ∧
      Calldata.decode 1024 Manifest.packaged data = .ok (Manifest.setter, [42]) ∧
      Calldata.encode Manifest.packaged (.text "set") (.list [.int 42]) = .ok data := by
  have hfound : Manifest.lookup Manifest.packaged (.text "set") = .ok Manifest.setter := rfl
  have hns : Arguments.coerceAll ((Manifest.setter.inputs.map .type).zip [.text "0x_2A"]) = .ok [42] := rfl
  have hdata := encode_eq_ok_iff.mpr ⟨_, _, _, hfound, Manifest.setter_selector, rfl, hns, rfl⟩
  have hmost : ([19, 147, 89, 250, 39, 51, 216, 165] ++ Arguments.write [42]).length ≤ 1024 := by decide +kernel
  have hlaw := calldata_one_to_one Manifest.packaged _ Manifest.packaged_table 1024
  obtain ⟨m, ns, hm, -, hcoerced, hdecoded⟩ := hlaw.1 _ _ _ (by norm_num) hdata hmost
  obtain rfl : Manifest.setter = m := Except.ok.inj (hfound.symm.trans hm)
  rw [← Arguments.coerceAll_types, hns, Except.ok.injEq] at hcoerced
  subst hcoerced
  exact ⟨_, hdata, hmost, hdecoded, hlaw.2.1 _ _ _ hdecoded⟩

end Calldata

end WordSlot
