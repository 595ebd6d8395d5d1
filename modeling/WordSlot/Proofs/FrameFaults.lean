import WordSlot.Proofs.Positions
import WordSlot.Proofs.Reporting

/-!
# What is wrong with a frame

A byte string begins with the frame of a number or it does not. If it does, reading gives the number, or a domain fault if the
number is too wide. If it does not, reading gives a call fault, and each of the six faults stands for one malformation: a count
that ends too early, too late or in a zero, and a magnitude that is empty, cut short or padded. The width is looked at last, so
that a malformed frame is never a domain fault, however wide its number would be.
-/

namespace WordSlot

open Outcome

/-! ## Counts -/

namespace Varint

/-- Bytes that each say that another follows. -/
def Unended (b : Bytes) : Prop := ∀ x ∈ b, 128 ≤ x.toNat

/-- What is wrong with bytes that begin with no count of at most `allowed` bytes. A zero that ends a count is wrong behind other
bytes, and behind none if there have been bytes before, that is if `first` is false. -/
def MalformedWithin (allowed : Nat) (first : Bool) (b : Bytes) : AbiFault → Prop
  | .countTruncated => Unended b ∧ b.length < allowed
  | .countTooLong => Unended (b.take allowed) ∧ allowed ≤ b.length
  | .countNotMinimal =>
    ∃ groups rest, b = groups ++ 0 :: rest ∧ Unended groups ∧ groups.length < allowed ∧ (first = true → groups ≠ [])
  | _ => False

/-- What is wrong with bytes that begin with no count. -/
def Malformed (b : Bytes) (f : AbiFault) : Prop := MalformedWithin maxBytes true b f

theorem malformedWithin_zero {first : Bool} {b : Bytes} {f : AbiFault} :
    MalformedWithin 0 first b f ↔ f = .countTooLong := by
  cases f <;> simp [MalformedWithin, Unended]

theorem malformedWithin_nil {allowed : Nat} {first : Bool} {f : AbiFault} :
    MalformedWithin (allowed + 1) first [] f ↔ f = .countTruncated := by
  cases f <;> simp [MalformedWithin, Unended]

/-- Behind a byte that says that another follows, what is wrong is wrong with the rest. -/
theorem malformedWithin_cons_of_ge {allowed : Nat} {first : Bool} {x : UInt8} {b : Bytes} {f : AbiFault}
    (hx : 128 ≤ x.toNat) : MalformedWithin (allowed + 1) first (x :: b) f ↔ MalformedWithin allowed false b f := by
  cases f with
  | countTruncated => simp [MalformedWithin, Unended, hx]
  | countTooLong => simp [MalformedWithin, Unended, hx]
  | countNotMinimal =>
    constructor
    · rintro ⟨groups, rest, hb, hgroups, hlen, -⟩
      cases groups with
      | nil =>
        obtain ⟨rfl, -⟩ := List.cons.inj hb
        exact absurd hx (by decide)
      | cons y groups =>
        obtain ⟨-, rfl⟩ := List.cons.inj hb
        exact ⟨groups, rest, rfl, fun z hz => hgroups z (List.mem_cons_of_mem y hz), by simpa using hlen, nofun⟩
    · rintro ⟨groups, rest, rfl, hgroups, hlen, -⟩
      refine ⟨x :: groups, rest, rfl, ?_, by simpa using hlen, fun _ => List.cons_ne_nil x groups⟩
      simpa [Unended, hx] using hgroups
  | _ => rfl

/-- A byte that ends a count leaves one thing to be wrong: it is a zero that adds nothing. -/
theorem malformedWithin_cons_of_lt {allowed : Nat} {first : Bool} {x : UInt8} {b : Bytes} {f : AbiFault}
    (hx : x.toNat < 128) :
    MalformedWithin (allowed + 1) first (x :: b) f ↔ f = .countNotMinimal ∧ first = false ∧ x = 0 := by
  have hunended : ∀ groups : Bytes, ¬ Unended (x :: groups) := by
    intro groups h
    have := h x List.mem_cons_self
    omega
  cases f with
  | countNotMinimal =>
    constructor
    · rintro ⟨groups, rest, hb, hgroups, -, hfirst⟩
      cases groups with
      | nil =>
        obtain ⟨hzero, -⟩ := List.cons.inj hb
        exact ⟨rfl, by simpa using hfirst, hzero⟩
      | cons y groups =>
        obtain ⟨rfl, -⟩ := List.cons.inj hb
        exact absurd hgroups (hunended groups)
    · rintro ⟨-, rfl, rfl⟩
      exact ⟨[], b, rfl, nofun, Nat.succ_pos allowed, nofun⟩
  | _ => simp [MalformedWithin, hunended]

/-- Reading a count fails exactly for what is wrong with the bytes. -/
theorem readGroups_eq_error_iff {allowed : Nat} {first : Bool} {b : Bytes} {e : Fault} :
    readGroups (allowed + 1) first b = .error e ↔ ∃ f, e = .abi f ∧ MalformedWithin (allowed + 1) first b f := by
  induction b generalizing allowed first with
  | nil => simp [readGroups, malformedWithin_nil, eq_comm]
  | cons x rest ih =>
    rcases Nat.lt_or_ge x.toNat 128 with hx | hx
    · have hzero : x.toNat = 0 ↔ x = 0 := UInt8.toNat_inj (b := 0)
      simp only [malformedWithin_cons_of_lt hx, readGroups, hx, if_true]
      by_cases hz : first = false ∧ x = 0
      · simp [hz, eq_comm]
      · simp [hzero, hz]
    · have hlow : ¬ x.toNat < 128 := by omega
      simp only [malformedWithin_cons_of_ge hx, readGroups, hlow, if_false]
      cases allowed with
      | zero => simp [malformedWithin_zero, eq_comm]
      | succ allowed =>
        rw [if_neg (Nat.succ_ne_zero allowed), bind_eq_error, ih]
        simp

/-- Reading fails exactly on the bytes that begin with no count, for what is wrong with them. -/
theorem read_eq_error_iff {b : Bytes} {e : Fault} : read b = .error e ↔ ∃ f, e = .abi f ∧ Malformed b f :=
  readGroups_eq_error_iff

end Varint

/-! ## Frames -/

namespace Frame

/-- A byte string begins with the frame of a number. A number with more bytes than can be counted has no frame. -/
def Begins (b : Bytes) (n : Nat) : Prop := (Bytes.magnitude n).length < 2 ^ 70 ∧ write n <+: b

/-- What is wrong with bytes that begin with no frame: there is no count, or the count is zero, or fewer bytes follow than it
says, or more than one byte is counted and the first is zero. -/
def Malformed (b : Bytes) : AbiFault → Prop
  | .magnitudeEmpty => b.head? = some 0
  | .payloadTruncated need present =>
    ∃ rest, b = Varint.encode need ++ rest ∧ need < 2 ^ 70 ∧ rest.length < need ∧ present = rest.length
  | .magnitudeNotMinimal =>
    ∃ length rest, b = Varint.encode length ++ 0 :: rest ∧ length < 2 ^ 70 ∧ 1 < length ∧ length ≤ rest.length + 1
  | f => Varint.Malformed b f

/-- Bytes that begin with no count begin with no frame. -/
theorem malformed_of_count {b : Bytes} {f : AbiFault} (h : Varint.Malformed b f) : Malformed b f := by
  cases f with
  | magnitudeEmpty | payloadTruncated | magnitudeNotMinimal => exact h.elim
  | _ => exact h

/-- Reading behind a count that can be read. -/
theorem read_encode (bits : Int) {length : Nat} (rest : Bytes) (h : length < 2 ^ 70) :
    read bits (Varint.encode length ++ rest) =
      if length = 0 then .error (.abi .magnitudeEmpty)
      else if rest.length < length then .error (.abi (.payloadTruncated length rest.length))
      else ofMagnitude bits (rest.take length) >>= fun n => .ok (n, rest.drop length) := by
  rw [read, Varint.read_eq_ok_iff.mpr ⟨rfl, h⟩]
  rfl

/-- Bytes that can be counted are refused as a number for a zero in front of others, and else for a number with more than `bits`
digits. -/
theorem ofMagnitude_eq_error_iff {bits : Nat} {b : Bytes} {e : Fault} (h : b.length < 2 ^ 70) :
    ofMagnitude bits b = .error e ↔
      (1 < b.length ∧ b.head? = some 0 ∧ e = .abi .magnitudeNotMinimal) ∨
      ((1 < b.length → b.head? ≠ some 0) ∧ bits < bitLength b.toNat ∧
        e = .domain (.overflow (decimalInt bits) (bitLength b.toNat))) := by
  unfold ofMagnitude
  by_cases hz : 1 < b.length ∧ b.head? = some 0
  · simp [hz, eq_comm]
  · have hhead : 1 < b.length → b.head? ≠ some 0 := fun hlen hzero => hz ⟨hlen, hzero⟩
    have hpad : ¬ (1 < b.length && b.head? == some 0) = true := by simpa using hz
    rw [if_neg hpad]
    by_cases hw : bits < bitLength b.toNat
    · -- The width is below the digits of a number that can be counted, so that it has a text.
      have hwide : bitLength b.toNat ≤ 8 * b.length := by
        rw [bitLength_le_iff, pow_mul]
        exact Bytes.toNat_lt b
      rw [if_pos (by exact_mod_cast hw), Json.decimalText_word (by omega), ok_bind, throw_eq_error, Except.error.injEq]
      constructor
      · rintro rfl
        exact .inr ⟨hhead, hw, rfl⟩
      · rintro (⟨hlen, hzero, -⟩ | ⟨-, -, rfl⟩)
        · exact absurd hzero (hhead hlen)
        · rfl
    · rw [if_neg (by exact_mod_cast hw)]
      constructor
      · intro hok
        cases hok
      · rintro (⟨hlen, hzero, -⟩ | ⟨-, hwide, -⟩)
        · exact absurd hzero (hhead hlen)
        · exact absurd hwide hw

/-- Reading fails for what is wrong with the bytes, whatever the width. -/
theorem read_of_malformed (bits : Nat) {b : Bytes} {f : AbiFault} (h : Malformed b f) : read bits b = .error (.abi f) := by
  have hcount : ∀ {g : AbiFault}, Varint.Malformed b g → read bits b = .error (.abi g) := by
    intro g hg
    rw [read, Varint.read_eq_error_iff.mpr ⟨g, rfl, hg⟩, error_bind]
  cases f with
  | magnitudeEmpty =>
    obtain ⟨rest, rfl⟩ := List.head?_eq_some_iff.mp h
    have hzero : Varint.encode 0 = [0] := Varint.encode_of_lt (by decide)
    have hread := read_encode bits rest (by norm_num : 0 < 2 ^ 70)
    rwa [hzero, if_pos rfl] at hread
  | payloadTruncated need present =>
    obtain ⟨rest, rfl, hneed, hshort, rfl⟩ := h
    rw [read_encode bits rest hneed, if_neg (by omega), if_pos hshort]
  | magnitudeNotMinimal =>
    obtain ⟨length, rest, rfl, hlength, hmore, hrest⟩ := h
    have htake : ((0 :: rest).take length).length = length := by
      rw [List.length_take, List.length_cons]
      omega
    have hhead : ((0 :: rest).take length).head? = some 0 := by
      rw [List.head?_take, if_neg (by omega), List.head?_cons]
    have hfault : ofMagnitude bits ((0 :: rest).take length) = .error (.abi .magnitudeNotMinimal) :=
      (ofMagnitude_eq_error_iff (by omega)).mpr (.inl ⟨by omega, hhead, rfl⟩)
    rw [read_encode bits _ hlength, if_neg (by omega), if_neg (by rw [List.length_cons]; omega), hfault, error_bind]
  | _ => exact hcount h

/-- Reading fails on the frame of a number with more than `bits` digits, and tells how many it has. -/
theorem read_of_begins {bits n : Nat} {b : Bytes} (h : Begins b n) (hwide : 2 ^ bits ≤ n) :
    read bits b = .error (.domain (.overflow (decimalInt bits) (bitLength n))) := by
  obtain ⟨hlength, rest, rfl⟩ := h
  have hpos := Bytes.length_magnitude_pos n
  have hbits : bits < bitLength n := by
    rw [← not_le, bitLength_le_iff]
    omega
  have hfault : ofMagnitude bits (Bytes.magnitude n) = .error (.domain (.overflow (decimalInt bits) (bitLength n))) := by
    refine (ofMagnitude_eq_error_iff hlength).mpr (.inr ⟨Bytes.head?_magnitude n, ?_, ?_⟩)
    · rwa [Bytes.toNat_magnitude]
    · rw [Bytes.toNat_magnitude]
  rw [write, List.append_assoc, read_encode bits _ hlength, if_neg (by omega), if_neg (by simp), List.take_left, hfault,
    error_bind]

/-- Whenever reading fails, the bytes are malformed or begin with the frame of a number that is too wide. -/
theorem malformed_or_wide_of_read {bits : Nat} {b : Bytes} {e : Fault} (h : read bits b = .error e) :
    (∃ f, e = .abi f ∧ Malformed b f) ∨ ∃ n, Begins b n ∧ 2 ^ bits ≤ n := by
  cases hcount : Varint.read b with
  | error e' =>
    obtain ⟨f, rfl, hf⟩ := Varint.read_eq_error_iff.mp hcount
    rw [read, hcount, error_bind, Except.error.injEq] at h
    exact .inl ⟨f, h.symm, malformed_of_count hf⟩
  | ok counted =>
    obtain ⟨length, rest⟩ := counted
    obtain ⟨rfl, hlength⟩ := Varint.read_eq_ok_iff.mp hcount
    rw [read_encode bits rest hlength] at h
    split at h
    · rename_i hzero
      subst hzero
      cases h
      exact .inl ⟨.magnitudeEmpty, rfl, by rw [Varint.encode_of_lt (by decide)]; rfl⟩
    · split at h
      · rename_i hshort
        cases h
        exact .inl ⟨_, rfl, rest, rfl, hlength, hshort, rfl⟩
      · rename_i hne hrest
        have htake : (rest.take length).length = length := by
          rw [List.length_take]
          omega
        rw [bind_eq_error, ofMagnitude_eq_error_iff (by omega)] at h
        rcases h with (⟨hmore, hhead, rfl⟩ | ⟨hhead, hwide, -⟩) | ⟨_, -, ⟨⟩⟩
        · refine .inl ⟨.magnitudeNotMinimal, rfl, length, rest.tail, ?_, hlength, by omega, ?_⟩
          · rw [List.head?_take, if_neg hne] at hhead
            rw [← List.eq_cons_of_mem_head? hhead]
          · rw [List.length_tail]
            omega
        · have hmagnitude : Bytes.magnitude (Bytes.toNat (rest.take length)) = rest.take length :=
            Bytes.magnitude_toNat _ (List.ne_nil_of_length_pos (by omega)) hhead
          refine .inr ⟨Bytes.toNat (rest.take length), ⟨by rw [hmagnitude, htake]; exact hlength, rest.drop length, ?_⟩, ?_⟩
          · rw [write, hmagnitude, htake, List.append_assoc, List.take_append_drop]
          · rw [← not_lt, ← bitLength_le_iff]
            omega

end Frame

/-! ## Frames at a position -/

/-- Reading bytes at a position fails exactly when reading what stands there does. -/
theorem Buffer.readAt_eq_error_iff {α : Type} {strict : Bytes → Except Fault (α × Bytes)}
    {loose : Buffer → Int → Except Fault (α × Int)} {b : Bytes} {k : Nat} {e : Fault} :
    readAt strict loose (.bytes b) k = .error e ↔ strict (b.drop k) = .error e := by
  have hread : readAt strict loose (.bytes b) k = strict (b.drop k) >>= fun r =>
      pure (r.1, ((b.length - r.2.length : Nat) : Int)) := rfl
  simp [hread, bind_eq_error]

/-- A number is read at a position exactly where the frame of one with at most `bits` digits stands there. -/
theorem decodeUInt_eq_ok_iff {b : Bytes} {k bits n : Nat} {stop : Int} :
    decodeUInt bits (.bytes b) k = .ok (n, stop) ↔
      Frame.Begins (b.drop k) n ∧ n < 2 ^ bits ∧ stop = (k + (Frame.write n).length : Nat) := by
  have hread : decodeUInt bits (.bytes b) k = .ok (n, stop) ↔
      Frame.write n <+: b.drop k ∧ ((bitLength n : Int) ≤ bits ∧ (Bytes.magnitude n).length < 2 ^ 70) ∧
        stop = (k + (Frame.write n).length : Nat) :=
    Buffer.readAt_eq_ok_iff (fun _ _ _ => Frame.read_eq_ok_iff) Frame.write_ne_nil
  rw [hread, Int.ofNat_le, bitLength_le_iff, Frame.Begins]
  tauto

/-- Every reading of a framed number at a position of a byte string comes to one of three ends, whatever the width that is asked
for. It gives a number and the position behind it exactly where the frame of that number stands and the number has at most `bits`
binary digits. It is a domain fault exactly where the frame of a wider number stands. It is a call fault exactly where no frame
stands, and then the fault says what is malformed. -/
theorem frames_sorted_by_outcome (buf : Bytes) (offset bits : Nat) :
    (∀ (v : Nat) (j : Int), decodeUInt bits (.bytes buf) offset = .ok (v, j) ↔
      Frame.Begins (buf.drop offset) v ∧ v < 2 ^ bits ∧ j = (offset + (Frame.write v).length : Nat)) ∧
    ((∃ f, decodeUInt bits (.bytes buf) offset = .error (.domain f)) ↔
      ∃ v, Frame.Begins (buf.drop offset) v ∧ 2 ^ bits ≤ v) ∧
    ((∃ f, decodeUInt bits (.bytes buf) offset = .error (.abi f)) ↔ ¬ ∃ v, Frame.Begins (buf.drop offset) v) ∧
    (∀ f, decodeUInt bits (.bytes buf) offset = .error (.abi f) ↔ Frame.Malformed (buf.drop offset) f) := by
  have herror : ∀ {e}, decodeUInt bits (.bytes buf) offset = .error e ↔ Frame.read bits (buf.drop offset) = .error e :=
    Buffer.readAt_eq_error_iff
  have hwide : ∀ {v}, Frame.Begins (buf.drop offset) v → 2 ^ bits ≤ v →
      ∃ f, decodeUInt bits (.bytes buf) offset = .error (.domain f) :=
    fun hbegins hv => ⟨_, herror.mpr (Frame.read_of_begins hbegins hv)⟩
  have hcases : ∀ {e}, decodeUInt bits (.bytes buf) offset = .error e →
      (∃ f, e = .abi f ∧ Frame.Malformed (buf.drop offset) f) ∨ ∃ v, Frame.Begins (buf.drop offset) v ∧ 2 ^ bits ≤ v :=
    fun he => Frame.malformed_or_wide_of_read (herror.mp he)
  -- A frame is read or too wide, so that a call fault leaves room for none.
  have hnone : ∀ {f}, decodeUInt bits (.bytes buf) offset = .error (.abi f) → ¬ ∃ v, Frame.Begins (buf.drop offset) v := by
    rintro f hf ⟨v, hbegins⟩
    rcases Nat.lt_or_ge v (2 ^ bits) with hv | hv
    · rw [decodeUInt_eq_ok_iff.mpr ⟨hbegins, hv, rfl⟩] at hf
      cases hf
    · obtain ⟨g, hg⟩ := hwide hbegins hv
      rw [hg] at hf
      cases hf
  refine ⟨fun v j => decodeUInt_eq_ok_iff, ⟨?_, ?_⟩, ⟨?_, ?_⟩, fun f => ⟨?_, ?_⟩⟩
  · rintro ⟨f, hf⟩
    rcases hcases hf with ⟨g, hg, -⟩ | hv
    · cases hg
    · exact hv
  · rintro ⟨v, hbegins, hv⟩
    exact hwide hbegins hv
  · rintro ⟨f, hf⟩
    exact hnone hf
  · intro hno
    cases hread : decodeUInt bits (.bytes buf) offset with
    | ok r => exact absurd ⟨r.1, (decodeUInt_eq_ok_iff.mp hread).1⟩ hno
    | error e =>
      rcases hcases hread with ⟨f, rfl, -⟩ | ⟨v, hbegins, -⟩
      · exact ⟨f, rfl⟩
      · exact absurd ⟨v, hbegins⟩ hno
  · intro hf
    rcases hcases hf with ⟨g, hg, hmalformed⟩ | ⟨v, hbegins, -⟩
    · cases hg
      exact hmalformed
    · exact absurd ⟨v, hbegins⟩ (hnone hf)
  · intro hmalformed
    exact herror.mpr (Frame.read_of_malformed bits hmalformed)

-- Padding is found before the width is looked at.
example : decodeUInt 8 (.bytes [9, 3, 0, 255, 255]) 1 = .error (.abi .magnitudeNotMinimal) := rfl

end WordSlot
