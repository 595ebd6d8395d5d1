import WordSlot.Proofs.Rejection

/-!
# Return data and what it holds

The return data of a method with at most one output is written and read by two functions that fit each other: what the one writes
the other reads as the number that the value was taken as, and the other reads nothing else. With two outputs or more nothing can
be written, since a method gives one value at most. An outcome of the host that says a call was carried out therefore shows one
value in two forms.
-/

namespace WordSlot

open Outcome

namespace ReturnData

variable {m : Method}

/-- Bytes are decoded as they are. -/
theorem decodeAny_bytes (m : Method) (b : Bytes) : decodeAny m (.bytes b) = decode m b := rfl

/-! ## No output, one, and more -/

/-- A method that returns nothing has an empty list of results, whatever it is given. -/
theorem encode_of_none (h : m.outputs = []) (v : Value) : encode m v = .ok (Arguments.write []) := by
  rw [encode, h]
  rfl

/-- The one output is written as the number that the value is taken as. -/
theorem encode_of_one {t : UIntType} (h : m.outputs = [t]) (v : Value) :
    encode m v = (coerceUInt t.bits v).map fun n => Arguments.write [n] := by
  rw [encode, h]
  change (do let n ← coerceUInt t.bits v; let ns ← Arguments.coerceAll []; pure (n :: ns)).map Arguments.write = _
  cases coerceUInt t.bits v <;> rfl

/-- There is no writing one value for two outputs. -/
theorem encode_of_more (h : 2 ≤ m.outputs.length) (v : Value) :
    encode m v = .error (.abi (.lengthMismatch m.outputs.length 1)) := by
  have hempty : m.outputs.isEmpty = false := by
    rw [List.isEmpty_eq_false_iff]
    exact List.ne_nil_of_length_pos (by omega)
  have hlength : (m.outputs.map Value.type).length ≠ [v].length := by
    rw [List.length_map, List.length_singleton]
    omega
  rw [encode, hempty, if_neg Bool.false_ne_true, Arguments.encode, if_pos hlength, List.length_map]
  rfl

/-- A value can be written if there is no output, or one that takes it. -/
theorem encode_accepts_iff {v : Value} :
    (∃ data, encode m v = .ok data) ↔ m.outputs = [] ∨ ∃ t, m.outputs = [t] ∧ ∃ n, coerceUInt t.bits v = .ok n := by
  match h : m.outputs with
  | [] => simp [encode_of_none h]
  | [t] => simp [encode_of_one h, map_eq_ok]
  | _ :: _ :: _ => simp [encode_of_more (m := m) (by simp [h])]

/-! ## Reading back -/

/-- Reading takes exactly the written lists of as many fitting numbers as there are outputs, and gives the first. -/
theorem decode_eq_ok_iff {data : Bytes} {r : Option Nat} :
    decode m data = .ok r ↔
      ∃ ns, data = Arguments.write ns ∧ List.Forall₂ UIntType.Fits m.outputs ns ∧ m.outputs.length < 2 ^ 70 ∧ ns.head? = r := by
  simp only [decode, bind_eq_ok, Prod.exists, Arguments.read_eq_ok_iff]
  constructor
  · intro h
    obtain ⟨ns, rest, ⟨rfl, hfits, hlength⟩, hrest⟩ := h
    cases rest with
    | nil => exact ⟨ns, List.append_nil _, hfits, hlength, Except.ok.inj hrest⟩
    | cons b rest => nomatch hrest
  · intro h
    obtain ⟨ns, rfl, hfits, hlength, rfl⟩ := h
    exact ⟨ns, [], ⟨(List.append_nil _).symm, hfits, hlength⟩, rfl⟩

/-- Where nothing is returned only the empty list is taken. -/
theorem decode_of_none (h : m.outputs = []) {data : Bytes} {r : Option Nat} :
    decode m data = .ok r ↔ data = Arguments.write [] ∧ r = none := by
  rw [decode_eq_ok_iff, h]
  constructor
  · intro hdata
    obtain ⟨ns, rfl, hfits, -, rfl⟩ := hdata
    rw [List.forall₂_nil_left_iff.mp hfits]
    exact ⟨rfl, rfl⟩
  · intro hdata
    obtain ⟨rfl, rfl⟩ := hdata
    exact ⟨[], rfl, .nil, by norm_num, rfl⟩

/-- Where one number is returned only a list of one number that fits is taken. -/
theorem decode_of_one {t : UIntType} (h : m.outputs = [t]) {data : Bytes} {r : Option Nat} :
    decode m data = .ok r ↔ ∃ n, t.Fits n ∧ data = Arguments.write [n] ∧ r = some n := by
  rw [decode_eq_ok_iff, h]
  constructor
  · intro hdata
    obtain ⟨ns, rfl, hfits, -, rfl⟩ := hdata
    obtain ⟨n, ns, hfit, hnil, rfl⟩ := List.forall₂_cons_left_iff.mp hfits
    rw [List.forall₂_nil_left_iff.mp hnil]
    exact ⟨n, hfit, rfl, rfl⟩
  · intro hdata
    obtain ⟨n, hfit, rfl, rfl⟩ := hdata
    exact ⟨[n], rfl, .cons hfit .nil, by norm_num, rfl⟩

/-- What is written for the one output is read as the number that the value is taken as; a value that is not taken has no return
data, for the same fault. -/
theorem encode_bind_decode {t : UIntType} (h : m.outputs = [t]) (v : Value) :
    (encode m v >>= fun data => decode m data) = (coerceUInt t.bits v).map some := by
  rw [encode_of_one h]
  cases hv : coerceUInt t.bits v with
  | error f => rfl
  | ok n => exact (decode_of_one h).mpr ⟨n, coerceUInt_fits hv, rfl, rfl⟩

/-- Reading takes exactly what writing gives. -/
theorem decode_accepts_iff (h : m.outputs.length ≤ 1) (data : Bytes) :
    (∃ r, decode m data = .ok r) ↔ ∃ v, encode m v = .ok data := by
  rcases Nat.le_one_iff_eq_zero_or_eq_one.mp h with h | h
  · replace h := List.length_eq_zero_iff.mp h
    simp only [decode_of_none h, encode_of_none h, Except.ok.injEq, exists_const, exists_and_left, exists_eq, and_true]
    exact eq_comm
  · obtain ⟨t, h⟩ := List.length_eq_one_iff.mp h
    simp only [decode_of_one h, encode_of_one h, map_eq_ok]
    constructor
    · intro hr
      obtain ⟨r, n, hfit, rfl, -⟩ := hr
      exact ⟨.int n, n, coerceUInt_int hfit, rfl⟩
    · intro hv
      obtain ⟨v, n, hn, rfl⟩ := hv
      exact ⟨some n, n, coerceUInt_fits hn, rfl, rfl⟩

end ReturnData

/-! ## Outcomes of the host -/

/-- An outcome names a method of the slot's own manifest, and its return data holds the value that it gives. -/
def Envelope.TellsReturned (e : Envelope) : Prop :=
  ∃ m, Manifest.lookup Manifest.packaged e.function = .ok m ∧ ReturnData.decodeAny m (.bytes e.returnData) = .ok e.returned

namespace Site

/-- What a set reports tells what was returned. -/
theorem setOutcome_tells : setOutcome.TellsReturned :=
  ⟨Manifest.setter, lookup_packaged_iff.mpr ⟨rfl, .inl rfl⟩, (ReturnData.decode_of_none rfl).mpr ⟨rfl, rfl⟩⟩

/-- What a get reports tells what was returned. -/
theorem getOutcome_tells {n : Nat} (h : n < wordLimit) : (getOutcome n).TellsReturned :=
  ⟨Manifest.getter, lookup_packaged_iff.mpr ⟨rfl, .inr rfl⟩, (ReturnData.decode_of_one (t := .widest) rfl).mpr ⟨n, h, rfl, rfl⟩⟩

/-- Of what was asked for and is allowed, an outcome tells what it returns unless it is a rejection. -/
theorem carryOut_tells {function : Value} {asked : Except Fault (Method × List Nat)} {s : Site} {e : Envelope}
    (hallows : ∀ m ns, asked = .ok (m, ns) → Manifest.Allows m ns)
    (h : ((carryOut function asked).perform s).1 = .ok e) (hok : e.ok = true) : e.TellsReturned := by
  cases asked with
  | error f =>
    obtain ⟨around, hperform, -⟩ := carryOut_error function f s
    rw [hperform] at h
    rw [not_ok_of_refusal h] at hok
    nomatch hok
  | ok request =>
    obtain ⟨m, ns⟩ := request
    cases hexecute : (execute m (ns.map fun (n : Nat) => .int n)).perform s with
    | mk result s' =>
      cases result with
      | error f =>
        obtain ⟨around, hperform, -⟩ := orReject_error function hexecute
        have hrefusal : refusal function f = .ok e := (congrArg Prod.fst hperform).symm.trans h
        rw [not_ok_of_refusal hrefusal] at hok
        nomatch hok
      | ok e' =>
        have hperform : (carryOut function (.ok (m, ns))).perform s = (.ok e', s') := orReject_ok hexecute
        rw [hperform] at h
        obtain rfl := Except.ok.inj h
        rcases execute_outcome (hallows m ns rfl) (congrArg Prod.fst hexecute) with rfl | ⟨n, hn, rfl⟩
        · exact setOutcome_tells
        · exact getOutcome_tells hn

/-- A call by name that succeeds tells what was returned. -/
theorem call_tells {name args : Value} {s : Site} {e : Envelope} (h : ((call name args).perform s).1 = .ok e)
    (hok : e.ok = true) : e.TellsReturned := by
  rw [call_perform] at h
  exact carryOut_tells (fun m ns => allows_of_request) h hok

/-- A call by bytes that succeeds tells what was returned. -/
theorem callData_tells {data : Value} {s : Site} {e : Envelope} (h : ((callData data).perform s).1 = .ok e)
    (hok : e.ok = true) : e.TellsReturned := by
  cases hbytes : data.toBytes? with
  | none =>
    rw [callData_not_bytes hbytes] at h
    refine carryOut_tells ?_ h hok
    intro m ns hasked
    nomatch hasked
  | some b =>
    rw [callData_perform hbytes] at h
    refine carryOut_tells (fun m ns hasked => ?_) h hok
    obtain ⟨c, -, hdecode⟩ := bind_eq_ok.mp hasked
    exact decode_packaged hdecode

/-- A call to get the word gives it whenever the store does. -/
theorem call_get_of_word {s s' : Site} {n : Nat} (h : getWord.perform s = (.ok n, s')) :
    ∃ around, (call (.text "get") (.list [])).perform s = (.ok (getOutcome n), { s' with around }) := by
  have hrequest : request (.text "get") (.list []) = .ok (Manifest.getter, []) :=
    request_eq_ok_iff.mpr (.inr ⟨rfl, rfl, rfl, rfl⟩)
  obtain ⟨around, hexecute, -⟩ := execute_getter_ok h
  rw [call_perform, hrequest]
  exact ⟨around, orReject_ok hexecute⟩

/-- A call to set a word is carried out whenever the store can set it. -/
theorem call_set_of_word {s s' : Site} {n : Nat} (hn : n < wordLimit) (h : (setWord (.int n)).perform s = (.ok (), s')) :
    ∃ around, (call (.text "set") (.list [.int n])).perform s = (.ok setOutcome, { s' with around }) := by
  have hcoerce : coerceUInt 256 (.int n) = .ok n := coerceUInt_int (t := .widest) hn
  obtain ⟨around, hexecute, -⟩ := execute_setter_ok h
  rw [call_perform, request_set, hcoerce]
  exact ⟨around, orReject_ok hexecute⟩

/-- Return data and the value returned tell the same story. Reading return data of a method with at most one output takes exactly
what writing gives; reading back what was written gives the number that the value is taken as, or nothing without an output; and
nothing can be written for two outputs or more. So on every host, whatever its backend holds, an outcome that says a call was
carried out has return data that is read as the value it returns. Such an outcome comes of every call to get or set the word that
the store itself can carry out. -/
theorem return_data_tells_returned :
    (∀ m : Method, m.outputs.length ≤ 1 → ∀ data : Bytes,
      (∃ r, ReturnData.decodeAny m (.bytes data) = .ok r) ↔ ∃ v, ReturnData.encode m v = .ok data) ∧
    (∀ (m : Method) (t : UIntType), m.outputs = [t] → ∀ v : Value,
      (ReturnData.encode m v >>= fun data => ReturnData.decodeAny m (.bytes data)) = (coerceUInt t.bits v).map some) ∧
    (∀ m : Method, m.outputs = [] → ∀ v : Value,
      (ReturnData.encode m v >>= fun data => ReturnData.decodeAny m (.bytes data)) = .ok none) ∧
    (∀ m : Method, 2 ≤ m.outputs.length → ∀ v : Value,
      ReturnData.encode m v = .error (.abi (.lengthMismatch m.outputs.length 1))) ∧
    ∀ s : Site,
      (∀ (name args : Value) (e : Envelope), ((call name args).perform s).1 = .ok e → e.ok = true → e.TellsReturned) ∧
      (∀ (data : Value) (e : Envelope), ((callData data).perform s).1 = .ok e → e.ok = true → e.TellsReturned) ∧
      (∀ n : Nat, (getWord.perform s).1 = .ok n →
        ∃ e, ((call (.text "get") (.list [])).perform s).1 = .ok e ∧ e.ok = true ∧ e.returned = some n) ∧
      ∀ n : Nat, n < 2 ^ 256 → ((setWord (.int n)).perform s).1 = .ok () →
        ∃ e, ((call (.text "set") (.list [.int n])).perform s).1 = .ok e ∧ e.ok = true ∧ e.returned = none := by
  simp only [ReturnData.decodeAny_bytes]
  refine ⟨fun m h data => ReturnData.decode_accepts_iff h data, fun m t h v => ReturnData.encode_bind_decode h v,
    fun m h v => ?_, fun m h v => ReturnData.encode_of_more h v, fun s => ⟨fun name args e => call_tells,
    fun data e => callData_tells, fun n hget => ?_, fun n hn hset => ?_⟩⟩
  · rw [ReturnData.encode_of_none h]
    exact (ReturnData.decode_of_none h).mpr ⟨rfl, rfl⟩
  · obtain ⟨around, hcall⟩ := call_get_of_word (Prod.ext hget rfl)
    exact ⟨getOutcome n, congrArg Prod.fst hcall, rfl, rfl⟩
  · obtain ⟨around, hcall⟩ := call_set_of_word hn (Prod.ext hset rfl)
    exact ⟨setOutcome, congrArg Prod.fst hcall, rfl, rfl⟩

/-- The law for a method that gives a byte, for one that would give two, and on a slot that was written in part: a numeral goes
into return data and comes back as its number, bytes that no value is written as are refused, and the word got is the word in the
return data. -/
theorem return_data_tells_returned_of_byte :
    let around : Surroundings := {
      setting := ⟨[], some ⟨none, "WARNING", none, 1024, 32⟩⟩
      files := .empty
      medium := .sound "/work" "temporal"
      journal := .fresh
      stamp := ⟨"2025-01-01T00:00:00", 1, 1, 4096⟩ }
    let s : Site := ⟨around, .memory [(slotKey, [7])]⟩
    let low : Method := ⟨"low", [], [⟨8, rfl⟩], "view"⟩
    let split : Method := ⟨"split", [], [⟨8, rfl⟩, ⟨8, rfl⟩], "view"⟩
    (ReturnData.encode low (.text " 0xfF ") >>= fun data => ReturnData.decodeAny low (.bytes data)) = .ok (some 255) ∧
      (∃ r, ReturnData.decodeAny low (.bytes [1, 1, 255]) = .ok r) ∧
      (¬ ∃ v, ReturnData.encode low v = .ok [1, 2, 0, 255]) ∧
      (ReturnData.encode Manifest.setter (.text "x") >>= fun data => ReturnData.decodeAny Manifest.setter (.bytes data)) =
        .ok none ∧
      ReturnData.encode split (.int 3) = .error (.abi (.lengthMismatch 2 1)) ∧
      (∃ e, ((call (.text "get") (.list [])).perform s).1 = .ok e ∧ e.returned = some 7 ∧ e.TellsReturned) ∧
      ∃ e, ((call (.text "set") (.list [.int 9])).perform s).1 = .ok e ∧ e.returned = none := by
  intro around s low split
  obtain ⟨haccepts, hone, hnone, hmore, hsite⟩ := return_data_tells_returned
  obtain ⟨hcall, -, hget, hset⟩ := hsite s
  have hnumeral : coerceUInt 8 (.text " 0xfF ") = .ok 255 := toOption_eq_some.mp (by decide +kernel)
  have hpadded : (ReturnData.decodeAny low (.bytes [1, 2, 0, 255])).toOption = none := by decide +kernel
  have hwritten : ReturnData.encode low (.int 255) = .ok [1, 1, 255] := toOption_eq_some.mp (by decide +kernel)
  obtain ⟨e, he, hok, hreturned⟩ := hget 7 rfl
  obtain ⟨e', he', -, hreturned'⟩ := hset 9 (by norm_num) rfl
  refine ⟨?_, (haccepts low le_rfl _).mpr ⟨.int 255, hwritten⟩, fun hv => ?_, hnone Manifest.setter rfl _, hmore split le_rfl _,
    ⟨e, he, hreturned, hcall _ _ e he hok⟩, e', he', hreturned'⟩
  · exact (hone low ⟨8, rfl⟩ rfl _).trans (congrArg (Except.map some) hnumeral)
  · obtain ⟨r, hr⟩ := (haccepts low le_rfl _).mpr hv
    rw [hr] at hpadded
    nomatch hpadded

end Site

end WordSlot
