import WordSlot.Abi.Buffer
import WordSlot.Proofs.Framing

/-!
# Reading at a position

A reader that takes exactly the written forms from the front of a byte string takes them at every position of one, and gives
back the position behind them. So an argument list means the same wherever it stands: what stands before it and after it is
neither looked at nor taken.
-/

namespace WordSlot

open Outcome

namespace Varint

/-- A count takes a byte. -/
theorem encode_ne_nil (n : Nat) : encode n ≠ [] := by
  rw [encode]
  split <;> simp

end Varint

/-- A frame takes a byte. -/
theorem Frame.write_ne_nil (n : Nat) : Frame.write n ≠ [] := by
  simp [Frame.write, Varint.encode_ne_nil]

/-- A list of arguments takes a byte. -/
theorem Arguments.write_ne_nil (ns : List Nat) : Arguments.write ns ≠ [] := by
  simp [Arguments.write, Varint.encode_ne_nil]

namespace Buffer

/-- Where a strict reader takes the written forms of the good values, reading at a position takes the same forms there. -/
theorem readAt_eq_ok_iff {α : Type} {strict : Bytes → Except Fault (α × Bytes)}
    {loose : Buffer → Int → Except Fault (α × Int)} {written : α → Bytes} {good : α → Prop}
    (hstrict : ∀ b x rest, strict b = .ok (x, rest) ↔ b = written x ++ rest ∧ good x) (hne : ∀ x, written x ≠ [])
    {b : Bytes} {k : Nat} {x : α} {stop : Int} :
    readAt strict loose (.bytes b) k = .ok (x, stop) ↔
      written x <+: b.drop k ∧ good x ∧ stop = (k + (written x).length : Nat) := by
  have hread : readAt strict loose (.bytes b) k = strict (b.drop k) >>= fun r =>
      pure (r.1, ((b.length - r.2.length : Nat) : Int)) := rfl
  simp only [hread, bind_eq_ok, Prod.exists, pure_eq_ok, Except.ok.injEq, Prod.mk.injEq]
  constructor
  · rintro ⟨y, rest, hy, rfl, rfl⟩
    obtain ⟨hdrop, hgood⟩ := (hstrict _ _ _).mp hy
    refine ⟨⟨rest, hdrop.symm⟩, hgood, ?_⟩
    have hlen := congrArg List.length hdrop
    have hpos := List.length_pos_iff.mpr (hne y)
    simp only [List.length_drop, List.length_append] at hlen
    congr 1
    omega
  · rintro ⟨⟨rest, hdrop⟩, hgood, rfl⟩
    refine ⟨x, rest, (hstrict _ _ _).mpr ⟨hdrop.symm, hgood⟩, rfl, ?_⟩
    have hlen := congrArg List.length hdrop
    have hpos := List.length_pos_iff.mpr (hne x)
    simp only [List.length_drop, List.length_append] at hlen
    congr 1
    omega

end Buffer

/-- A count is read at a position exactly where its written form stands there. -/
theorem decodeCount_eq_ok_iff {b : Bytes} {k n : Nat} {stop : Int} :
    decodeCount (.bytes b) k = .ok (n, stop) ↔
      Varint.encode n <+: b.drop k ∧ n < 2 ^ 70 ∧ stop = (k + (Varint.encode n).length : Nat) :=
  Buffer.readAt_eq_ok_iff (fun _ _ _ => Varint.read_eq_ok_iff) Varint.encode_ne_nil

/-- A number of a type is read at a position exactly where the frame of one that fits stands there. -/
theorem decodeUInt_type_eq_ok_iff {t : UIntType} {b : Bytes} {k n : Nat} {stop : Int} :
    decodeUInt t.bits (.bytes b) k = .ok (n, stop) ↔
      Frame.write n <+: b.drop k ∧ t.Fits n ∧ stop = (k + (Frame.write n).length : Nat) :=
  Buffer.readAt_eq_ok_iff (fun _ _ _ => Frame.read_type_eq_ok_iff) Frame.write_ne_nil

/-- Two pieces stand one after the other at a position exactly when the second stands where the first ends. -/
theorem append_prefix_drop_iff {a c b : Bytes} {k : Nat} :
    a ++ c <+: b.drop k ↔ a <+: b.drop k ∧ c <+: b.drop (k + a.length) := by
  rw [← List.drop_drop]
  constructor
  · rintro ⟨rest, h⟩
    rw [← h, List.append_assoc, List.drop_left]
    exact ⟨List.prefix_append _ _, List.prefix_append _ _⟩
  · rintro ⟨⟨rest, h⟩, hc⟩
    rw [← h, List.drop_left] at hc
    rw [← h]
    exact List.prefix_append_right_inj a |>.mpr hc

/-- Numbers of given types are read at a position exactly where the frames of ones that fit stand one after another. -/
theorem readItems_at_eq_ok_iff {ts : List UIntType} {ns : List Nat} {b : Bytes} {k : Nat} {stop : Int} :
    Arguments.readItems parseType (fun bits i => decodeUInt bits (.bytes b) i) (ts.map .type) (k : Int) = .ok (ns, stop) ↔
      ns.flatMap Frame.write <+: b.drop k ∧ List.Forall₂ UIntType.Fits ts ns ∧
        stop = (k + (ns.flatMap Frame.write).length : Nat) := by
  induction ts generalizing ns k with
  | nil =>
    simp only [List.map_nil, Arguments.readItems, pure_eq_ok, Except.ok.injEq, Prod.mk.injEq,
      List.forall₂_nil_left_iff]
    constructor
    · rintro ⟨rfl, rfl⟩
      simp
    · rintro ⟨-, rfl, rfl⟩
      simp
  | cons t ts ih =>
    simp only [List.map_cons, Arguments.readItems, parseType, pure_eq_ok, ok_bind, bind_eq_ok, Prod.exists,
      Except.ok.injEq, Prod.mk.injEq]
    constructor
    · rintro ⟨n, i, hn, ns', j, hns, rfl, rfl⟩
      obtain ⟨hp, hfit, rfl⟩ := decodeUInt_type_eq_ok_iff.mp hn
      obtain ⟨hps, hfits, rfl⟩ := ih.mp hns
      rw [List.flatMap_cons, append_prefix_drop_iff]
      exact ⟨⟨hp, hps⟩, .cons hfit hfits, by rw [List.length_append, Nat.add_assoc]⟩
    · rintro ⟨hp, hfits, rfl⟩
      cases hfits with
      | @cons _ n _ ns' hfit hfits =>
        rw [List.flatMap_cons, append_prefix_drop_iff] at hp
        refine ⟨n, _, decodeUInt_type_eq_ok_iff.mpr ⟨hp.1, hfit, rfl⟩, ns', _, ih.mpr ⟨hp.2, hfits, ?_⟩, rfl, rfl⟩
        rw [List.flatMap_cons, List.length_append, Nat.add_assoc]

/-- An argument list is read at a position exactly where the written list of fitting numbers stands there. -/
theorem decodeArguments_eq_ok_iff {ts : List UIntType} {ns : List Nat} {b : Bytes} {k : Nat} {stop : Int} :
    decodeArguments (.bytes b) (.list (ts.map .type)) k = .ok (ns, stop) ↔
      Arguments.write ns <+: b.drop k ∧ List.Forall₂ UIntType.Fits ts ns ∧ ts.length < 2 ^ 70 ∧
        stop = (k + (Arguments.write ns).length : Nat) := by
  simp only [decodeArguments, bind_eq_ok, Prod.exists, Value.parts, Value.parts?, Except.ok.injEq, Arguments.checkCount]
  constructor
  · rintro ⟨count, i, hc, _, rfl, _, hcheck, hitems⟩
    obtain ⟨hp, hlt, rfl⟩ := decodeCount_eq_ok_iff.mp hc
    obtain ⟨hps, hfits, rfl⟩ := readItems_at_eq_ok_iff.mp hitems
    split at hcheck
    · rename_i hcount
      rw [List.length_map] at hcount
      subst hcount
      rw [Arguments.write, ← hfits.length_eq, append_prefix_drop_iff]
      exact ⟨⟨hp, hps⟩, hfits, hlt, by rw [List.length_append, Nat.add_assoc]⟩
    · simp at hcheck
  · rintro ⟨hp, hfits, hlt, rfl⟩
    rw [Arguments.write, ← hfits.length_eq] at hp ⊢
    rw [append_prefix_drop_iff] at hp
    refine ⟨ts.length, _, decodeCount_eq_ok_iff.mpr ⟨hp.1, hlt, rfl⟩, _, rfl, (), by simp, ?_⟩
    exact readItems_at_eq_ok_iff.mpr ⟨hp.2, hfits, by rw [List.length_append, Nat.add_assoc]⟩

/-- Argument lists are canonical and mean the same at every position. Fewer than `2 ^ 70` numbers that fit their types are
written, and the bytes read back as these numbers behind anything and in front of anything. In turn, whatever bytes are read as
numbers are the bytes that writing them gives, the numbers fit their types, and the reading stays inside the buffer. -/
theorem argument_lists_canonical :
    (∀ (ts : List UIntType) (vs : List Nat) (p s : Bytes), ts.length < 2 ^ 70 →
      List.Forall₂ (fun t v => v < 2 ^ t.bits) ts vs →
      ∃ e, encodeArguments (.list (ts.map .type)) (.list (vs.map fun (v : Nat) => .int v)) = .ok e ∧
        decodeArguments (.bytes (p ++ e ++ s)) (.list (ts.map .type)) p.length =
          .ok (vs, (p.length + e.length : Nat))) ∧
    (∀ (buf : Bytes) (ts : List UIntType) (vs : List Nat) (offset stop : Int), 0 ≤ offset →
      decodeArguments (.bytes buf) (.list (ts.map .type)) offset = .ok (vs, stop) →
      offset < stop ∧ stop ≤ buf.length ∧ List.Forall₂ (fun t v => v < 2 ^ t.bits) ts vs ∧
        encodeArguments (.list (ts.map .type)) (.list (vs.map fun (v : Nat) => .int v)) =
          .ok ((buf.drop offset.toNat).take (stop - offset).toNat)) := by
  have hencode : ∀ (ts : List UIntType) (vs : List Nat), List.Forall₂ UIntType.Fits ts vs →
      encodeArguments (.list (ts.map .type)) (.list (vs.map fun (v : Nat) => .int v)) = .ok (Arguments.write vs) :=
    fun _ _ hfits => Arguments.encode_ints hfits
  constructor
  · intro ts vs p s hlen hfits
    refine ⟨Arguments.write vs, hencode ts vs hfits, decodeArguments_eq_ok_iff.mpr ⟨?_, hfits, hlen, rfl⟩⟩
    rw [List.append_assoc, List.drop_left]
    exact List.prefix_append _ _
  · intro buf ts vs offset stop hoff h
    obtain ⟨k, rfl⟩ := Int.eq_ofNat_of_zero_le hoff
    obtain ⟨hp, hfits, -, rfl⟩ := decodeArguments_eq_ok_iff.mp h
    have hpos := List.length_pos_iff.mpr (Arguments.write_ne_nil vs)
    have hle := hp.length_le
    rw [List.length_drop] at hle
    refine ⟨by omega, by omega, hfits, ?_⟩
    have htake : ((k + (Arguments.write vs).length : Nat) - (k : Int)).toNat = (Arguments.write vs).length := by omega
    rw [hencode ts vs hfits, Int.toNat_natCast, htake, ← List.prefix_iff_eq_take.mp hp]

/-- The law at two numbers that fill their types, and at a buffer with a byte before and a byte behind an argument list. -/
theorem argument_lists_canonical_instance :
    (∃ e, encodeArguments (.list [.type ⟨8, by decide⟩, .type .widest]) (.list [.int 255, .int (2 ^ 256 - 1 : Nat)]) = .ok e ∧
      decodeArguments (.bytes ([1, 2] ++ e ++ [3])) (.list [.type ⟨8, by decide⟩, .type .widest]) (2 : Nat) =
        .ok ([255, 2 ^ 256 - 1], (2 + e.length : Nat))) ∧
    decodeArguments (.bytes [7, 1, 1, 5, 9]) (.list [.type .widest]) 1 = .ok ([5], 4) ∧
    encodeArguments (.list [.type .widest]) (.list [.int 5]) = .ok [1, 1, 5] := by
  have hread : decodeArguments (.bytes [7, 1, 1, 5, 9]) (.list [.type .widest]) 1 = .ok ([5], 4) := rfl
  refine ⟨argument_lists_canonical.1 [⟨8, by decide⟩, .widest] [255, 2 ^ 256 - 1] [1, 2] [3] (by norm_num)
    (.cons (by norm_num) (.cons (by norm_num [UIntType.widest]) .nil)), hread, ?_⟩
  exact (argument_lists_canonical.2 [7, 1, 1, 5, 9] [.widest] [5] 1 4 (by norm_num) hread).2.2.2

end WordSlot
