import WordSlot.Proofs.Rejection

/-!
# A call by name and its calldata

Calling by name and calling with the calldata that the call is encoded as come to the same: the same outcome or the same fault,
and the same state down to the journal. A call that cannot be encoded is rejected with the code of the fault that encoding ends
with, and all that comes of it is a warning in the log. Calldata of the slot's own manifest is at most forty-two bytes long.
-/

namespace WordSlot

open Outcome

/-! ## What a call is encoded as -/

/-- The frame of a word is a byte longer than a word at most. -/
theorem length_frame_le {n : Nat} (h : n < wordLimit) : (Frame.write n).length ≤ 33 := by
  have hbits : bitLength n ≤ 8 * 32 := (bitLength_le_iff n 256).mpr h
  have hmagnitude : (Bytes.magnitude n).length ≤ 32 := Bytes.length_magnitude_le (by omega) hbits
  have hcount : (Varint.encode (Bytes.magnitude n).length).length = 1 := by
    rw [Varint.encode_of_lt (by omega)]
    rfl
  rw [Frame.write, List.length_append, hcount]
  omega

/-- The arguments of a method of the storage take one word at most. -/
theorem length_write_le {m : Method} {ns : List Nat} (h : Manifest.Allows m ns) : (Arguments.write ns).length ≤ 34 := by
  rcases h with ⟨-, n, hn, rfl⟩ | ⟨-, rfl⟩
  · have hframe := length_frame_le hn
    have hcount : (Varint.encode 1).length = 1 := by
      rw [Varint.encode_of_lt (by omega)]
      rfl
    simp only [Arguments.write, List.length_cons, List.length_nil, List.flatMap_cons, List.flatMap_nil, List.length_append,
      Nat.zero_add, hcount]
    omega
  · have hcount : (Varint.encode 0).length = 1 := by
      rw [Varint.encode_of_lt (by omega)]
      rfl
    simp [Arguments.write, hcount]

namespace Calldata

variable {name : Text} {args : List Value}

/-- A call is encoded exactly if it asks for something, as the selector and the numbers of what it asks for. -/
theorem encode_packaged_iff {data : Bytes} :
    encode Manifest.packaged (.text name) (.list args) = .ok data ↔
      ∃ m ns sel, Site.request (.text name) (.list args) = .ok (m, ns) ∧ m.selector = .ok sel ∧
        data = sel ++ Arguments.write ns := by
  have hrequest : ∀ m ns, Site.request (.text name) (.list args) = .ok (m, ns) ↔
      Manifest.lookup Manifest.packaged (.text name) = .ok m ∧ Site.coerceArguments m (.list args) = .ok ns := by
    intro m ns
    simp [Site.request, bind_eq_ok]
  rw [encode_eq_ok_iff]
  constructor
  · rintro ⟨m, sel, ns, hm, hsel, hlen, hns, rfl⟩
    refine ⟨m, ns, sel, (hrequest m ns).mpr ⟨hm, ?_⟩, hsel, rfl⟩
    rw [Arguments.coerceAll_types] at hns
    exact coerceArguments_eq_ok_iff.mpr ⟨args, rfl, hlen, hns⟩
  · rintro ⟨m, ns, sel, hasked, hsel, rfl⟩
    obtain ⟨hm, hns⟩ := (hrequest m ns).mp hasked
    obtain ⟨vs, hvs, hlen, hns⟩ := coerceArguments_eq_ok_iff.mp hns
    obtain rfl : args = vs := Option.some.inj hvs
    rw [← Arguments.coerceAll_types] at hns
    exact ⟨m, sel, ns, hm, hsel, hlen, hns, rfl⟩

/-- What a call is encoded as decodes to what the call asks for. -/
theorem decode_of_request {m : Method} {ns : List Nat} {sel : Bytes} {most : Nat}
    (h : Site.request (.text name) (.list args) = .ok (m, ns)) (hsel : m.selector = .ok sel)
    (hmost : (sel ++ Arguments.write ns).length ≤ most) :
    decode most Manifest.packaged (sel ++ Arguments.write ns) = .ok (m, ns) := by
  refine (decode_eq_ok_iff Manifest.packaged_table).mpr ⟨hmost, _, sel, Manifest.packaged_methods, ?_, hsel, rfl, ?_⟩
  · rcases allows_of_request h with ⟨rfl, -⟩ | ⟨rfl, -⟩ <;> simp
  · rcases allows_of_request h with ⟨rfl, hns⟩ | ⟨rfl, hns⟩
    · exact ⟨fits_setter_iff.mpr hns, by decide⟩
    · exact ⟨fits_getter_iff.mpr hns, by decide⟩

/-- A call of the storage is short. -/
theorem length_packaged_le {data : Bytes} (h : encode Manifest.packaged (.text name) (.list args) = .ok data) :
    data.length ≤ 42 := by
  obtain ⟨m, ns, sel, hasked, hsel, rfl⟩ := encode_packaged_iff.mp h
  have hsel := Method.length_selector hsel
  have hwrite := length_write_le (allows_of_request hasked)
  rw [List.length_append, hsel]
  exact Nat.add_le_add_left hwrite 8

/-- A call that cannot be encoded asks for nothing. The faults differ only over the number of arguments. -/
theorem request_of_encode_error {f : Fault} (h : encode Manifest.packaged (.text name) (.list args) = .error f) :
    ∃ g, Site.request (.text name) (.list args) = .error g ∧
      (g = f ∨ ∃ m : Method, f = .abi (.lengthMismatch m.inputs.length args.length) ∧
        g = .abi (.wrongArity m.signature m.inputs.length args.length)) := by
  unfold encode at h
  unfold Site.request
  cases hm : Manifest.lookup Manifest.packaged (.text name) with
  | error g =>
    rw [hm] at h
    cases h
    exact ⟨f, rfl, .inl rfl⟩
  | ok m =>
    have hsel : ∃ sel, m.selector = .ok sel := by
      rcases (lookup_packaged_iff.mp hm).2 with rfl | rfl
      · exact ⟨_, Manifest.setter_selector⟩
      · exact ⟨_, Manifest.getter_selector⟩
    obtain ⟨sel, hsel⟩ := hsel
    simp only [hm, hsel, ok_bind, Value.parts, Value.parts?, Arguments.encode, List.length_map] at h
    simp only [ok_bind, Site.coerceArguments, Value.parts, Value.parts?]
    by_cases hlen : m.inputs.length = args.length
    · cases hns : Arguments.coerceAll ((m.inputs.map .type).zip args) with
      | error g =>
        simp only [hlen, hns, ne_eq, not_true, if_false, Except.map, error_bind, Except.error.injEq] at h
        subst h
        exact ⟨g, by simp [hlen], .inl rfl⟩
      | ok ns => simp [hlen, hns, Except.map] at h
    · simp only [hlen, ne_eq, not_false_eq_true, if_true, throw_eq_error, error_bind, Except.error.injEq] at h
      subst h
      exact ⟨_, by simp [Ne.symm hlen], .inr ⟨m, rfl, rfl⟩⟩

/-- A call that cannot be encoded for what it is gets refused with the code of that fault, in the same words unless the number of
arguments is at fault. -/
theorem refusal_of_encode_error {f : StoreFault} (h : encode Manifest.packaged (.text name) (.list args) = .error (.store f))
    (habout : f.family.aboutValue = true) :
    ∃ g report, Site.request (.text name) (.list args) = .error g ∧
      Site.refusal (.text name) g = .ok ⟨false, .text name, none, [], some report⟩ ∧ report.code = f.report.code ∧
      ((∃ d, f = .domain d) ∨ (∃ quoted known, f = .abi (.unknownFunction quoted known)) → report = f.report) := by
  obtain ⟨g, hasked, hg⟩ := request_of_encode_error h
  rcases hg with rfl | ⟨m, hlength, rfl⟩
  · exact ⟨_, f.report, hasked, if_pos habout, rfl, fun _ => rfl⟩
  · obtain rfl : f = .abi (.lengthMismatch m.inputs.length args.length) := Fault.store.inj hlength
    refine ⟨_, _, hasked, rfl, rfl, ?_⟩
    rintro (⟨d, ⟨⟩⟩ | ⟨quoted, known, ⟨⟩⟩)

/-- A truth value is no number to set. -/
theorem encode_truthValue (b : Bool) :
    encode Manifest.packaged (.text "set") (.list [.bool b]) = .error (.domain .truthValue) := by
  rw [encode, show Manifest.lookup Manifest.packaged (.text "set") = .ok Manifest.setter from rfl, ok_bind,
    Manifest.setter_selector]
  rfl

end Calldata

/-! ## A configuration that cannot be read -/

namespace Site

variable {s : Site} {f : Fault}

/-- Where the configuration cannot be loaded the key is not admitted. -/
theorem admitKey_of_config_error (h : s.around.setting.load.1 = .error f) :
    (admitKey (.bytes slotKey)).perform s = (.error f, s.withSetting s.around.setting.load.2) := by
  have hkey : keyBytes (.bytes slotKey) = .ok slotKey := rfl
  have hload : s.around.setting.load = (.error f, s.around.setting.load.2) := Prod.ext h rfl
  rw [admitKey_perform, admission, hkey]
  dsimp only
  rw [hload]

/-- What is allowed fails as the configuration does, before the backend is touched. -/
theorem execute_of_config_error (hs : s.backend.WellFormed) (h : s.around.setting.load.1 = .error f) {m : Method}
    {ns : List Nat} (hallows : Manifest.Allows m ns) :
    (execute m (ns.map fun (n : Nat) => .int n)).perform s = (.error f, s.withSetting s.around.setting.load.2) := by
  have hadmit := admitKey_of_config_error h
  rcases hallows with ⟨rfl, n, hn, rfl⟩ | ⟨rfl, rfl⟩
  · obtain ⟨rest, hrest⟩ := setSlot_admits hs (.bytes slotKey) (.bytes (Bytes.ofNat wordBytes n))
    refine execute_setter_error ?_
    rw [setWord_perform hn, hrest s rfl, Act.perform_bind, hadmit]
  · obtain ⟨rest, hrest⟩ := getSlot_admits hs (.bytes slotKey)
    refine execute_getter_error (getWord_of_error ?_)
    rw [hrest s rfl, Act.perform_bind, hadmit]

/-- Calldata is not even decoded then. -/
theorem callData_of_config_error (h : s.around.setting.load.1 = .error f) (data : Bytes) :
    (callData (.bytes data)).perform s = (.error f, s.withSetting s.around.setting.load.2) := by
  have hf : f.aboutValue = false := config_fails s.around.setting f h
  rw [callData_perform rfl, h, error_bind]
  exact orReject_of_fails .none (fails_error hf)

end Site

/-! ## Agreement -/

/-- The two ways to call a host agree, whatever has become of its memory or file backend. What a call by name is encoded as is at
most forty-two bytes long and, unless the configuration allows less, calling with it gives what the call by name gives and leaves
the very same state. A call that cannot be encoded for what it is gets rejected with the code of that fault, in the same words if
the number or the function is at fault. Nothing is touched but the files that the log writes to, which take the warning; so what
the path of a file backend leads to is the same, unless the log is written there, and all files are if it is written to none. -/
theorem call_agrees_with_calldata (s : Site) (reachable : s.backend.Reachable) (name : Text) (args : List Value) :
    (∀ data, Calldata.encode Manifest.packaged (.text name) (.list args) = .ok data →
      data.length ≤ 42 ∧
      ((∀ c, s.around.setting.Gives c → data.length ≤ c.maxCalldataBytes) →
        (Site.call (.text name) (.list args)).perform s = (Site.callData (.bytes data)).perform s)) ∧
    (∀ f : StoreFault, Calldata.encode Manifest.packaged (.text name) (.list args) = .error (.store f) →
      f.family.aboutValue = true →
      ∃ report s', (Site.call (.text name) (.list args)).perform s =
          (.ok ⟨false, .text name, none, [], some report⟩, s') ∧
        report.code = f.report.code ∧
        ((∃ d, f = .domain d) ∨ (∃ quoted known, f = .abi (.unknownFunction quoted known)) → report = f.report) ∧
        s.Untouched report s' ∧
        (∀ path held, s.backend = .file path held →
          (∀ h ∈ s.around.journal.handlers, ∀ p, h.sink = .file p →
            ∀ l, s.around.files.locate p = .ok l → s.around.files.locate path ≠ .ok l) →
          s'.around.files.find path = s.around.files.find path) ∧
        ((∀ h ∈ s.around.journal.handlers, ∀ p, h.sink ≠ .file p) → s'.around.files = s.around.files)) := by
  have hs := reachable.wellFormed
  constructor
  · intro data hdata
    refine ⟨Calldata.length_packaged_le hdata, fun hmost => ?_⟩
    obtain ⟨m, ns, sel, hasked, hsel, rfl⟩ := Calldata.encode_packaged_iff.mp hdata
    have hcall : (HostCall.named name args).act.perform s = _ := HostCall.act_of_asked hs hasked
    refine hcall.trans ?_
    cases hconfig : s.around.setting.load.1 with
    | ok c =>
      have hdecode := Calldata.decode_of_request hasked hsel (hmost c hconfig)
      have hraw : (HostCall.raw (sel ++ Arguments.write ns)).asked s.around.setting.load.1 = .ok (m, ns) := by
        rw [HostCall.asked, hconfig]
        exact hdecode
      exact (HostCall.act_of_asked hs hraw).symm
    | error f =>
      rw [Site.execute_of_config_error hs hconfig (allows_of_request hasked), Site.callData_of_config_error hconfig]
  · intro f hf habout
    obtain ⟨g, report, hasked, hreport, hcode, hsame⟩ := Calldata.refusal_of_encode_error hf habout
    obtain ⟨s', hperform, hrejection⟩ := @HostCall.act_of_refused (.named name args) s g hasked
    obtain ⟨report', henvelope, huntouched⟩ := hrejection _ hreport
    cases henvelope
    exact ⟨report, s', hperform.trans (congrArg (·, s') hreport), hcode, hsame, huntouched, fun _ _ _ => huntouched.find_eq,
      huntouched.files_eq⟩

/-- The agreement over a state file that has been read: a hex numeral is set alike both ways, and a truth value is rejected. -/
theorem call_agrees_with_calldata_over_file :
    let around : Surroundings := {
      setting := ⟨[], some ⟨none, "WARNING", none, 42, 64⟩⟩
      files := .empty
      medium := .sound "/work" "temporal"
      journal := .fresh
      stamp := ⟨"2025-01-01T00:00:00", 1, 1, 4096⟩ }
    let s : Site := ⟨around, (Operation.storeGet.act.perform ⟨around, .newFile ⟨.here, ["slots.json"]⟩⟩).2.backend⟩
    s.backend.Reachable ∧
      (∃ data, Calldata.encode Manifest.packaged (.text "set") (.list [.text "0x_2A"]) = .ok data ∧ data.length ≤ 42 ∧
        (Site.call (.text "set") (.list [.text "0x_2A"])).perform s = (Site.callData (.bytes data)).perform s) ∧
      ∃ s', (Site.call (.text "set") (.list [.bool true])).perform s =
        (.ok ⟨false, .text "set", none, [], some (StoreFault.domain .truthValue).report⟩, s') ∧
        s.Untouched (StoreFault.domain .truthValue).report s' ∧ s'.around.files = s.around.files := by
  intro around s
  have hreach : s.backend.Reachable := .operation around .storeGet (.file _)
  have hrequest : Site.request (.text "set") (.list [.text "0x_2A"]) = .ok (Manifest.setter, [42]) := rfl
  have hdata := Calldata.encode_packaged_iff.mpr ⟨_, _, _, hrequest, Manifest.setter_selector, rfl⟩
  obtain ⟨hlen, hagree⟩ := (call_agrees_with_calldata s hreach "set" [.text "0x_2A"]).1 _ hdata
  obtain ⟨report, s', hrejected, -, hreport, huntouched, -, hfiles⟩ :=
    (call_agrees_with_calldata s hreach "set" [.bool true]).2 _ (Calldata.encode_truthValue true) rfl
  rw [hreport (.inl ⟨_, rfl⟩)] at hrejected huntouched
  refine ⟨hreach, ⟨_, hdata, hlen, hagree fun c hc => ?_⟩, s', hrejected, huntouched, hfiles nofun⟩
  cases hc
  exact hlen

/-- A log that is written to the state file takes the warning of a rejection there: the slot held a word, and now the file cannot
even be read. -/
theorem rejection_spoils_logged_state_file :
    let path : Path := ⟨.here, ["slots.json"]⟩
    let content : Bytes := Utf8.encode
      "\x7b\"slots\": \x7b\"0x0000000000000000000000000000000000000000000000000000000000000000\": \"0x07\"\x7d, \"version\": 1\x7d".toList
    let start : Surroundings := ⟨⟨[], none⟩, ⟨[(["slots.json"], .file content)]⟩, .sound "/work" "temporal", .fresh,
      ⟨"2025-01-01T00:00:00", 1, 1, 4096⟩⟩
    let around := ((Surroundings.configureLog none (.text "WARNING") false (.text "slots.json")).perform start).2
    let s : Site := ⟨around, .newFile path⟩
    let call := Site.call (.text "set") (.list [.bool true])
    s.backend.Reachable ∧ Calldata.encode Manifest.packaged (.text "set") (.list [.bool true]) = .error (.domain .truthValue) ∧
      (call.perform s).1.toOption.map (·.ok) = some false ∧ (Site.getWord.perform s).1.toOption = some 7 ∧
      (Site.getWord.perform (call.perform s).2).1.toOption = none := by
  intro path content start around s call
  exact ⟨.file path, Calldata.encode_truthValue true, by decide +kernel, by decide +kernel, by decide +kernel⟩

end WordSlot
