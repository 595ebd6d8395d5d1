import WordSlot.Proofs.Backend
import WordSlot.Proofs.Calldata
import WordSlot.Proofs.Records

/-!
# The host, step by step

A call by name and a call as calldata differ only in how the method and its numbers are found. Once they are, both are
carried out alike, and what fails on the way is rejected or goes through. The slot's own manifest leaves two calls that can be
asked for: to set a number that fits a word, and to get the word.
-/

namespace WordSlot

open Outcome

namespace Site

/-- What becomes of a call that fails: a rejection if the fault is about a value, else the fault itself. -/
def refusal (function : Value) : Fault → Except Fault Envelope
  | .store f => if f.family.aboutValue then .ok ⟨false, function, none, [], some f.report⟩ else .error (.store f)
  | f => .error f

/-- A refusal is reported as a failure. -/
theorem not_ok_of_refusal {function : Value} {f : Fault} {e : Envelope} (h : refusal function f = .ok e) : e.ok = false := by
  unfold refusal at h
  split at h
  · split at h
    · cases h
      rfl
    · cases h
  · cases h

/-- What succeeds is not refused. -/
theorem orReject_ok {function : Value} {act : Act Site Envelope} {s s' : Site} {e : Envelope}
    (h : act.perform s = (.ok e, s')) : (orReject function act).perform s = (.ok e, s') := by
  unfold orReject
  rw [Act.perform_tryCatch, h]

/-- What a host says when it rejects a call. -/
def logRejected (f : StoreFault) : Act Surroundings Unit :=
  Surroundings.log hostLogger LogLevel.warning (.text "call rejected: %s") [.text f.message] [("code", .text f.family.code)]

/-- To say so is never a fault, and the files take the lines of the rejection. -/
theorem logRejected_performs (f : StoreFault) (s : Surroundings) :
    ∃ s', (logRejected f).perform s = (.ok (), s') ∧
      s.Logged (s.linesOf LogLevel.warning (.rejected f.message f.family.code)) s' :=
  Surroundings.log_performs hostLogger LogLevel.warning _ _ _ (fun _ => rfl) (by decide) (LogRecord.make_rejected _ _) s

/-- A call that failed for what it is ends where the journal was told of the rejection. -/
theorem orReject_logged (function : Value) {act : Act Site Envelope} {s s' : Site} {f : StoreFault} {around : Surroundings}
    (h : act.perform s = (.error (.store f), s')) (habout : f.family.aboutValue = true)
    (hlog : (logRejected f).perform s'.around = (.ok (), around)) :
    (orReject function act).perform s = (refusal function (.store f), { s' with around }) := by
  unfold orReject
  rw [Act.perform_tryCatch, h]
  rw [logRejected] at hlog
  simp only [refusal, habout, if_true, reject, Act.perform_bind, perform_aroundAct, hlog, Act.perform_pure]

/-- A fault that is about no value goes through from where the call failed. -/
theorem orReject_through (function : Value) {act : Act Site Envelope} {s s' : Site} {f : Fault}
    (h : act.perform s = (.error f, s')) (habout : ∀ g, f = .store g → g.family.aboutValue = false) :
    (orReject function act).perform s = (refusal function f, s') := by
  unfold orReject
  rw [Act.perform_tryCatch, h]
  cases f with
  | store f =>
    simp only [refusal, habout f rfl, Bool.false_eq_true, if_false]
    rfl
  | misuse m => rfl
  | file f => rfl

/-- The lines that files take when a call is refused: those of a rejection, or none if the fault goes through. -/
def refusalLines (s : Surroundings) : Fault → List (Path × Bytes)
  | .store f => if f.family.aboutValue then s.linesOf LogLevel.warning (.rejected f.message f.family.code) else []
  | _ => []

/-- A fault that a call is rejected for is reported, and what files take is said by the report. -/
theorem refusalLines_of_ok {function : Value} {f : Fault} {e : Envelope} (h : refusal function f = .ok e) :
    ∃ report, e = ⟨false, function, none, [], some report⟩ ∧
      ∀ s, refusalLines s f = s.linesOf LogLevel.warning (.rejected report.message report.code) := by
  cases f with
  | store f =>
    by_cases habout : f.family.aboutValue = true
    · rw [refusal, if_pos habout] at h
      cases h
      exact ⟨f.report, rfl, fun s => if_pos habout⟩
    · rw [refusal, if_neg habout] at h
      cases h
  | misuse m => cases h
  | file f => cases h

/-- A call that failed is refused from where it failed; only the log hears of it. -/
theorem orReject_error (function : Value) {act : Act Site Envelope} {s s' : Site} {f : Fault}
    (h : act.perform s = (.error f, s')) :
    ∃ around, (orReject function act).perform s = (refusal function f, { s' with around }) ∧
      s'.around.Logged (refusalLines s'.around f) around := by
  cases f with
  | store f =>
    cases habout : f.family.aboutValue with
    | true =>
      obtain ⟨around, hlog, hl⟩ := logRejected_performs f s'.around
      refine ⟨around, orReject_logged function h habout hlog, ?_⟩
      rw [refusalLines, if_pos habout]
      exact hl
    | false =>
      refine ⟨s'.around, orReject_through function h ?_, ?_⟩
      · rintro g ⟨⟩
        exact habout
      · rw [refusalLines, habout]
        exact .refl _
  | misuse m => exact ⟨s'.around, orReject_through function h nofun, .refl _⟩
  | file f => exact ⟨s'.around, orReject_through function h nofun, .refl _⟩

/-- Carries out what was asked for; a fault in asking is refused like any other. -/
def carryOut (function : Value) (asked : Except Fault (Method × List Nat)) : Act Site Envelope :=
  orReject function (Act.ofExcept asked >>= fun (m, ns) => execute m (ns.map fun (n : Nat) => .int n))

/-- A fault in asking is refused, and only the log hears of it. -/
theorem carryOut_error (function : Value) (f : Fault) (s : Site) :
    ∃ around, (carryOut function (.error f)).perform s = (refusal function f, { s with around }) ∧
      s.around.Logged (refusalLines s.around f) around := by
  refine orReject_error function ?_
  rw [Act.perform_bind, Act.perform_ofExcept]

/-- What a call by name asks for. -/
def request (name args : Value) : Except Fault (Method × List Nat) := do
  let m ← Manifest.lookup Manifest.packaged name
  let ns ← coerceArguments m args
  pure (m, ns)

/-- A call by name is carried out as asked. -/
theorem call_perform (name args : Value) (s : Site) :
    (call name args).perform s = (carryOut name (request name args)).perform s := by
  unfold call carryOut request orReject
  rw [Act.perform_tryCatch, Act.perform_tryCatch]
  congr 1
  cases hm : Manifest.lookup Manifest.packaged name with
  | error f => rfl
  | ok m =>
    cases hns : coerceArguments m args with
    | error f => simp [Act.perform_bind, hns]
    | ok ns => simp [Act.perform_bind, hns]

/-- A call as calldata is carried out as decoded, once the configuration was asked for the size that is allowed. -/
theorem callData_perform {data : Value} {b : Bytes} (hb : data.toBytes? = some b) (s : Site) :
    (callData data).perform s =
      (carryOut .none (s.around.setting.load.1 >>= fun c =>
        Calldata.decode c.maxCalldataBytes Manifest.packaged b)).perform (s.withSetting s.around.setting.load.2) := by
  have hload : (aroundAct Surroundings.config).perform s =
      (s.around.setting.load.1, s.withSetting s.around.setting.load.2) := rfl
  unfold callData carryOut orReject
  rw [Act.perform_tryCatch, Act.perform_tryCatch]
  congr 1
  simp only [Calldata.ofValue, hb, Act.perform_bind, Act.perform_ofExcept, pure_eq_ok, hload]
  cases s.around.setting.load.1 <;> rfl

/-- Calldata that is no byte string is refused before anything is looked at. -/
theorem callData_not_bytes {data : Value} (hb : data.toBytes? = none) (s : Site) :
    (callData data).perform s = (carryOut .none (.error (.abi .calldataNotBytes))).perform s := by
  unfold callData carryOut orReject
  rw [Act.perform_tryCatch, Act.perform_tryCatch]
  simp only [Calldata.ofValue, hb, Act.perform_bind, Act.perform_ofExcept, throw_eq_error]

end Site

/-! ## What can be asked for -/

/-- The packaged manifest has a setter and a getter, by name. -/
theorem lookup_packaged_iff {name : Value} {m : Method} :
    Manifest.lookup Manifest.packaged name = .ok m ↔
      name = .text m.name ∧ (m = Manifest.setter ∨ m = Manifest.getter) := by
  rw [Manifest.lookup_eq_ok_iff]
  simp only [Manifest.packaged_methods, Except.ok.injEq, exists_eq_left', List.mem_cons, List.not_mem_nil, or_false]
  exact and_comm

/-- The widest type holds words. -/
theorem fits_widest (n : Nat) : UIntType.widest.Fits n ↔ n < wordLimit := Iff.rfl

/-- The setter takes one word. -/
theorem fits_setter_iff {ns : List Nat} :
    List.Forall₂ UIntType.Fits Manifest.setter.inputs ns ↔ ∃ n, n < wordLimit ∧ ns = [n] := by
  simp [Manifest.setter, List.forall₂_cons_left_iff, fits_widest]

/-- The getter takes nothing. -/
theorem fits_getter_iff {ns : List Nat} : List.Forall₂ UIntType.Fits Manifest.getter.inputs ns ↔ ns = [] := by
  simp [Manifest.getter]

/-- Arguments are coerced exactly if there are as many as the method takes, and each of them is. -/
theorem coerceArguments_eq_ok_iff {m : Method} {args : Value} {ns : List Nat} :
    Site.coerceArguments m args = .ok ns ↔
      ∃ vs, args.parts? = some vs ∧ m.inputs.length = vs.length ∧
        ((m.inputs.zip vs).mapM fun tv => coerceUInt tv.1.bits tv.2) = .ok ns := by
  unfold Site.coerceArguments Value.parts
  rw [bind_eq_ok]
  cases args.parts? with
  | none => simp
  | some vs =>
    simp only [Except.ok.injEq, exists_eq_left', Option.some.injEq, Arguments.coerceAll_types]
    by_cases hlen : vs.length = m.inputs.length
    · simp [hlen]
    · simp [hlen, Ne.symm hlen]

/-- A call by name asks to set the number that its one argument is taken as, or, without arguments, to get the word. -/
theorem request_eq_ok_iff {name args : Value} {m : Method} {ns : List Nat} :
    Site.request name args = .ok (m, ns) ↔
      m = Manifest.setter ∧ name = .text "set" ∧ (∃ v n, args.parts? = some [v] ∧ coerceUInt 256 v = .ok n ∧ ns = [n]) ∨
      m = Manifest.getter ∧ name = .text "get" ∧ args.parts? = some [] ∧ ns = [] := by
  have hrequest : Site.request name args = .ok (m, ns) ↔
      Manifest.lookup Manifest.packaged name = .ok m ∧ Site.coerceArguments m args = .ok ns := by
    simp [Site.request, bind_eq_ok]
  have hone : ∀ v, ((Manifest.setter.inputs.zip [v]).mapM fun tv => coerceUInt tv.1.bits tv.2) = .ok ns ↔
      ∃ n, coerceUInt 256 v = .ok n ∧ ns = [n] := by
    intro v
    rw [mapM_eq_ok_iff]
    simp [Manifest.setter, List.forall₂_cons_left_iff, UIntType.widest]
  rw [hrequest, lookup_packaged_iff, coerceArguments_eq_ok_iff]
  constructor
  · rintro ⟨⟨hname, rfl | rfl⟩, vs, hparts, hlen, hns⟩
    · obtain ⟨v, rfl⟩ := List.length_eq_one_iff.mp hlen.symm
      obtain ⟨n, hn, rfl⟩ := (hone v).mp hns
      exact .inl ⟨rfl, hname, v, n, hparts, hn, rfl⟩
    · obtain rfl := List.length_eq_zero_iff.mp hlen.symm
      cases hns
      exact .inr ⟨rfl, hname, hparts, rfl⟩
  · rintro (⟨rfl, hname, v, n, hparts, hn, rfl⟩ | ⟨rfl, hname, hparts, rfl⟩)
    · exact ⟨⟨hname, .inl rfl⟩, [v], hparts, rfl, (hone v).mpr ⟨n, hn, rfl⟩⟩
    · exact ⟨⟨hname, .inr rfl⟩, [], hparts, rfl, rfl⟩

/-- The setter's argument is coerced to a word. -/
theorem coerceArguments_setter (v : Value) :
    Site.coerceArguments Manifest.setter (.list [v]) = (coerceUInt 256 v).map fun n => [n] := by
  change (do let n ← coerceUInt 256 v; let ns ← Arguments.coerceAll []; pure (n :: ns)) = _
  cases coerceUInt 256 v <;> rfl

/-- A call to set asks for the number that its argument is taken as. -/
theorem request_set (v : Value) :
    Site.request (.text "set") (.list [v]) = (coerceUInt 256 v).map fun n => (Manifest.setter, [n]) := by
  have hlookup : Manifest.lookup Manifest.packaged (.text "set") = .ok Manifest.setter :=
    lookup_packaged_iff.mpr ⟨rfl, .inl rfl⟩
  rw [Site.request, hlookup, ok_bind, coerceArguments_setter]
  cases coerceUInt 256 v <;> rfl

/-- Decoded calldata asks to set a word or to get it. -/
theorem decode_packaged {most : Nat} {data : Bytes} {m : Method} {ns : List Nat}
    (h : Calldata.decode most Manifest.packaged data = .ok (m, ns)) :
    m = Manifest.setter ∧ (∃ n, n < wordLimit ∧ ns = [n]) ∨ m = Manifest.getter ∧ ns = [] := by
  obtain ⟨-, ms, sel, hms, hm, -, -, hfits, -⟩ := (Calldata.decode_eq_ok_iff Manifest.packaged_table).mp h
  rw [Manifest.packaged_methods] at hms
  cases hms
  simp only [List.mem_cons, List.not_mem_nil, or_false] at hm
  rcases hm with rfl | rfl
  · exact .inl ⟨rfl, fits_setter_iff.mp hfits⟩
  · exact .inr ⟨rfl, fits_getter_iff.mp hfits⟩

end WordSlot
