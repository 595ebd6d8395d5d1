import WordSlot.Proofs.Reach

/-!
# Calls that are rejected

Whether a call is rejected is settled before the store is touched, by the call and the configuration alone. Once a call is taken,
what can still fail is the backend, and its faults go through: they are never about a value that was handed in. So hosts with the
same configuration reject the same calls in the same words, whatever their backends hold.
-/

namespace WordSlot

open Outcome

/-- The calls that the slot's own manifest allows, with their numbers. -/
def Manifest.Allows (m : Method) (ns : List Nat) : Prop :=
  m = setter ∧ (∃ n, n < wordLimit ∧ ns = [n]) ∨ m = getter ∧ ns = []

theorem allows_of_request {name args : Value} {m : Method} {ns : List Nat} (h : Site.request name args = .ok (m, ns)) :
    Manifest.Allows m ns := by
  rcases request_eq_ok_iff.mp h with ⟨rfl, -, v, n, -, hn, rfl⟩ | ⟨rfl, -, -, rfl⟩
  · exact .inl ⟨rfl, n, coerceUInt_fits (t := .widest) hn, rfl⟩
  · exact .inr ⟨rfl, rfl⟩

namespace Site

/-! ## Calls that are taken -/

/-- A fault that is not about a value goes through as it is. -/
theorem orReject_of_fails (function : Value) {act : Act Site Envelope} {s : Site}
    (h : Fails (act.perform s).1 (·.aboutValue = false)) : (orReject function act).perform s = act.perform s := by
  unfold orReject
  rw [Act.perform_tryCatch]
  cases hact : act.perform s with
  | mk result s' =>
    rw [hact] at h
    cases result with
    | ok e => rfl
    | error f =>
      have hf := h f rfl
      cases f with
      | store f =>
        have hf : f.family.aboutValue = false := hf
        simp only [hf, Bool.false_eq_true, if_false, Act.perform_throw]
      | misuse m => rfl
      | file f => rfl

section

variable {s : Site} {m : Method} {ns : List Nat}

/-- Carrying out what is allowed fails only as the backend does. -/
theorem execute_fails (hs : s.backend.WellFormed) (h : Manifest.Allows m ns) :
    Fails ((execute m (ns.map fun (n : Nat) => .int n)).perform s).1 (·.aboutValue = false) := by
  rcases h with ⟨rfl, n, hn, rfl⟩ | ⟨rfl, rfl⟩
  · cases hset : (setWord (.int n)).perform s with
    | mk result s' =>
      cases result with
      | error f =>
        rw [List.map_singleton, execute_setter_error hset]
        exact fails_error (setWord_fails hn s f (congrArg Prod.fst hset))
      | ok done =>
        obtain ⟨around, hexecute, -⟩ := execute_setter_ok hset
        rw [List.map_singleton, hexecute]
        exact fails_ok _
  · cases hget : getWord.perform s with
    | mk result s' =>
      cases result with
      | error f =>
        rw [List.map_nil, execute_getter_error hget]
        exact fails_error (getWord_fails hs f (congrArg Prod.fst hget))
      | ok n =>
        obtain ⟨around, hexecute, -⟩ := execute_getter_ok hget
        rw [List.map_nil, hexecute]
        exact fails_ok _

/-- What is allowed and does not fail has set the word or got it. -/
theorem execute_outcome (h : Manifest.Allows m ns) {e : Envelope}
    (he : ((execute m (ns.map fun (n : Nat) => .int n)).perform s).1 = .ok e) :
    e = setOutcome ∨ ∃ n, n < wordLimit ∧ e = getOutcome n := by
  rcases h with ⟨rfl, n, hn, rfl⟩ | ⟨rfl, rfl⟩
  · rw [List.map_singleton] at he
    cases hset : (setWord (.int n)).perform s with
    | mk result s' =>
      cases result with
      | error f =>
        rw [execute_setter_error hset] at he
        nomatch he
      | ok done =>
        obtain ⟨around, hexecute, -⟩ := execute_setter_ok hset
        rw [hexecute] at he
        exact .inl (Except.ok.inj he).symm
  · rw [List.map_nil] at he
    cases hget : getWord.perform s with
    | mk result s' =>
      cases result with
      | error f =>
        rw [execute_getter_error hget] at he
        nomatch he
      | ok n =>
        obtain ⟨around, hexecute, -⟩ := execute_getter_ok hget
        rw [hexecute] at he
        exact .inr ⟨n, lt_of_getWord hget, (Except.ok.inj he).symm⟩

/-- What is allowed and does not fail is accepted. -/
theorem execute_accepts (h : Manifest.Allows m ns) {e : Envelope}
    (he : ((execute m (ns.map fun (n : Nat) => .int n)).perform s).1 = .ok e) : e.ok = true := by
  rcases execute_outcome h he with rfl | ⟨n, -, rfl⟩ <;> rfl

/-- A call that is allowed is never rejected, under whatever name it was made. -/
theorem carryOut_allowed (hs : s.backend.WellFormed) (function : Value) (h : Manifest.Allows m ns) :
    (carryOut function (.ok (m, ns))).perform s = (execute m (ns.map fun (n : Nat) => .int n)).perform s :=
  orReject_of_fails function (execute_fails hs h)

end

/-! ## Asking for the configuration beforehand -/

/-- Every access to a memory or file backend begins by admitting the key. -/
theorem getSlot_admits {b : Backend} (hb : b.WellFormed) (key : Value) :
    ∃ rest : Bytes → Act Site Value, ∀ s : Site, s.backend = b → (getSlot key).perform s = (admitKey key >>= rest).perform s := by
  unfold getSlot
  cases b with
  | memory slots =>
    refine ⟨fun k => pure (slots.found k), fun s hs => ?_⟩
    rw [Act.perform_bind, Act.perform_get]
    simp only [hs]
    rfl
  | file path held =>
    refine ⟨fun k => do pure ((← loadSlots path held).found k), fun s hs => ?_⟩
    rw [Act.perform_bind, Act.perform_get]
    simp only [hs]
    rfl
  | cell v => exact hb.elim

theorem setSlot_admits {b : Backend} (hb : b.WellFormed) (key value : Value) :
    ∃ rest : Bytes → Act Site Unit, ∀ s : Site, s.backend = b →
      (setSlot key value).perform s = (admitKey key >>= rest).perform s := by
  unfold setSlot
  cases b with
  | memory slots =>
    refine ⟨fun k => do
      let w ← Act.ofExcept (checkValue value)
      modify fun s => { s with backend := .memory (slots.put k w) }, fun s hs => ?_⟩
    rw [Act.perform_bind, Act.perform_get]
    simp only [hs]
  | file path held =>
    refine ⟨fun k => do
      let w ← Act.ofExcept (checkValue value)
      let loaded ← loadSlots path held
      flush path (loaded.put k w)
      remember path (loaded.put k w), fun s hs => ?_⟩
    rw [Act.perform_bind, Act.perform_get]
    simp only [hs]
  | cell v => exact hb.elim

/-- Admitting the slot's key asks for the configuration, so that it does not matter whether it was asked for before. -/
theorem admitKey_load (s : Site) :
    (admitKey (.bytes slotKey)).perform (s.withSetting s.around.setting.load.2) = (admitKey (.bytes slotKey)).perform s := by
  have hkey : keyBytes (.bytes slotKey) = .ok slotKey := rfl
  have hload : (s.withSetting s.around.setting.load.2).around.setting.load = s.around.setting.load := s.around.setting.load_load
  simp only [admitKey_perform, admission, hkey, hload]
  rfl

section

variable {s : Site} (hs : s.backend.WellFormed)
include hs

theorem getSlot_load :
    (getSlot (.bytes slotKey)).perform (s.withSetting s.around.setting.load.2) = (getSlot (.bytes slotKey)).perform s := by
  obtain ⟨rest, hrest⟩ := getSlot_admits hs (.bytes slotKey)
  rw [hrest s rfl, hrest (s.withSetting s.around.setting.load.2) rfl, Act.perform_bind, Act.perform_bind, admitKey_load]

theorem setSlot_load (value : Value) :
    (setSlot (.bytes slotKey) value).perform (s.withSetting s.around.setting.load.2) =
      (setSlot (.bytes slotKey) value).perform s := by
  obtain ⟨rest, hrest⟩ := setSlot_admits hs (.bytes slotKey) value
  rw [hrest s rfl, hrest (s.withSetting s.around.setting.load.2) rfl, Act.perform_bind, Act.perform_bind, admitKey_load]

/-- What is allowed is carried out alike, whether the configuration was asked for before or not. -/
theorem execute_load {m : Method} {ns : List Nat} (h : Manifest.Allows m ns) :
    (execute m (ns.map fun (n : Nat) => .int n)).perform (s.withSetting s.around.setting.load.2) =
      (execute m (ns.map fun (n : Nat) => .int n)).perform s := by
  rcases h with ⟨rfl, n, hn, rfl⟩ | ⟨rfl, rfl⟩
  · have hset : (setWord (.int n)).perform (s.withSetting s.around.setting.load.2) = (setWord (.int n)).perform s := by
      simp only [setWord_perform hn, setSlot_load hs]
    have hname : (Manifest.setter.name == "set") = true := rfl
    simp only [execute, List.map_singleton, hname, if_true, Act.perform_bind, hset]
  · have hget : getWord.perform (s.withSetting s.around.setting.load.2) = getWord.perform s := by
      simp only [getWord, Act.perform_bind, getSlot_load hs]
    have hother : (Manifest.getter.name == "set") = false := rfl
    have hname : (Manifest.getter.name == "get") = true := rfl
    simp only [execute, List.map_nil, hother, hname, if_true, Bool.false_eq_true, if_false, Act.perform_bind, hget]

end

/-! ## Calls that are not -/

/-- Only the log has heard of a rejection: the backend with what it remembers and the configuration are the same, and so are the
files but for one warning with the report's message and code, in each file that the log writes warnings to. -/
structure Untouched (report : Report) (s s' : Site) : Prop where
  backend : s'.backend = s.backend
  config : s'.around.setting.load.1 = s.around.setting.load.1
  logged : Surroundings.Logged (s.around.linesOf LogLevel.warning (.rejected report.message report.code))
    { s.around with setting := s'.around.setting } s'.around
  /-- Where lines are JSON, the warning says the message and the code. -/
  told : s.around.TellsFiles LogLevel.warning (.rejected report.message report.code)
    ((Notice.rejected report.message report.code).fields s.around.stamp)

section

variable {report : Report} {s s' : Site}

/-- Where no log is written to a file, the files are the same. -/
theorem Untouched.files_eq (h : s.Untouched report s') (streams : ∀ h ∈ s.around.journal.handlers, ∀ p, h.sink ≠ .file p) :
    s'.around.files = s.around.files :=
  h.logged.files_eq streams

/-- What a path leads to is the same, unless a log is written to that place. -/
theorem Untouched.find_eq (h : s.Untouched report s') {path : Path} (apart : ∀ h ∈ s.around.journal.handlers, ∀ p,
      h.sink = .file p → ∀ l, s.around.files.locate p = .ok l → s.around.files.locate path ≠ .ok l) :
    s'.around.files.find path = s.around.files.find path :=
  h.logged.find_of_apart apart

/-- A rejection that the log takes touches nothing else. -/
theorem untouched_of_logged {around : Surroundings}
    (h : s.around.Logged (s.around.linesOf LogLevel.warning (.rejected report.message report.code)) around) :
    s.Untouched report { s with around } where
  backend := rfl
  config := by rw [h.setting]
  logged := by
    rw [h.setting]
    exact h
  told := Surroundings.tellsFiles_of_tells (LogRecord.tells_rejected _ _) s.around LogLevel.warning

/-- Asking for the configuration before leaves nothing else either. -/
theorem untouched_of_load (h : (s.withSetting s.around.setting.load.2).Untouched report s') : s.Untouched report s' :=
  ⟨h.backend, h.config.trans (congrArg Prod.fst s.around.setting.load_load), h.logged, h.told⟩

end

end Site

/-- A call as a host takes it: by name with a list of arguments, or as calldata. -/
inductive HostCall where
  | named (name : Text) (args : List Value)
  | raw (data : Bytes)

namespace HostCall

/-- Makes the call. -/
def act : HostCall → Act Site Envelope
  | .named name args => Site.call (.text name) (.list args)
  | .raw data => Site.callData (.bytes data)

/-- The call among the operations on a host. -/
def operation : HostCall → Operation
  | .named name args => .call (.text name) (.list args)
  | .raw data => .callData (.bytes data)

/-- What a rejection names as the function. -/
def function : HostCall → Value
  | .named name _ => .text name
  | .raw _ => .none

/-- What the call asks for under a configuration, or why it asks for nothing. -/
def asked (config : Except Fault Config) : HostCall → Except Fault (Method × List Nat)
  | .named name args => Site.request (.text name) (.list args)
  | .raw data => config >>= fun c => Calldata.decode c.maxCalldataBytes Manifest.packaged data

/-- Where the call is carried out from: calldata asks for the configuration first. -/
def start (s : Site) : HostCall → Site
  | .named _ _ => s
  | .raw _ => s.withSetting s.around.setting.load.2

theorem act_perform (call : HostCall) (s : Site) :
    call.act.perform s = (Site.carryOut call.function (call.asked s.around.setting.load.1)).perform (call.start s) := by
  cases call with
  | named name args => exact Site.call_perform _ _ s
  | raw data => exact Site.callData_perform rfl s

theorem allows_of_asked {call : HostCall} {config : Except Fault Config} {m : Method} {ns : List Nat}
    (h : call.asked config = .ok (m, ns)) : Manifest.Allows m ns := by
  cases call with
  | named name args => exact allows_of_request h
  | raw data =>
    obtain ⟨c, -, hdecode⟩ := bind_eq_ok.mp h
    exact decode_packaged hdecode

theorem lt_of_asked {call : HostCall} {config : Except Fault Config} {n : Nat}
    (h : call.asked config = .ok (Manifest.setter, [n])) : n < wordLimit := by
  rcases allows_of_asked h with ⟨-, k, hk, hns⟩ | ⟨-, hns⟩
  · cases hns
    exact hk
  · nomatch hns

section

variable {call : HostCall} {s : Site}

/-- A call that is taken is carried out, from wherever it starts. -/
theorem act_of_asked (hs : s.backend.WellFormed) {m : Method} {ns : List Nat}
    (h : call.asked s.around.setting.load.1 = .ok (m, ns)) :
    call.act.perform s = (Site.execute m (ns.map fun (n : Nat) => .int n)).perform s := by
  have hallows := allows_of_asked h
  rw [act_perform, h]
  cases call with
  | named name args => exact Site.carryOut_allowed hs _ hallows
  | raw data =>
    have hs' : (s.withSetting s.around.setting.load.2).backend.WellFormed := hs
    exact (Site.carryOut_allowed hs' _ hallows).trans (Site.execute_load hs hallows)

/-- A call that is not taken is refused. If it is rejected, nothing is touched. -/
theorem act_of_refused {f : Fault} (h : call.asked s.around.setting.load.1 = .error f) :
    ∃ s', call.act.perform s = (Site.refusal call.function f, s') ∧
      ∀ e, Site.refusal call.function f = .ok e →
        ∃ report, e = ⟨false, call.function, none, [], some report⟩ ∧ s.Untouched report s' := by
  obtain ⟨around, hperform, hlogged⟩ := Site.carryOut_error call.function f (call.start s)
  refine ⟨_, by rw [act_perform, h, hperform], fun e he => ?_⟩
  obtain ⟨report, henvelope, hlines⟩ := Site.refusalLines_of_ok he
  rw [hlines] at hlogged
  have huntouched := Site.untouched_of_logged hlogged
  refine ⟨report, henvelope, ?_⟩
  cases call with
  | named name args => exact huntouched
  | raw data => exact Site.untouched_of_load huntouched

/-- A rejection is of a call that was not taken. -/
theorem refused_of_rejected (hs : s.backend.WellFormed) {e : Envelope} {s' : Site}
    (h : call.act.perform s = (.ok e, s')) (hrejected : e.ok = false) :
    ∃ f report, call.asked s.around.setting.load.1 = .error f ∧ Site.refusal call.function f = .ok e ∧
      e = ⟨false, call.function, none, [], some report⟩ ∧ s.Untouched report s' := by
  cases hasked : call.asked s.around.setting.load.1 with
  | error f =>
    obtain ⟨s₁, hperform, huntouched⟩ := act_of_refused hasked
    rw [hperform, Prod.mk.injEq] at h
    obtain ⟨hrefusal, rfl⟩ := h
    obtain ⟨report, henvelope, huntouched⟩ := huntouched e hrefusal
    exact ⟨f, report, rfl, hrefusal, henvelope, huntouched⟩
  | ok request =>
    obtain ⟨m, ns⟩ := request
    rw [act_of_asked hs hasked] at h
    have haccepted := Site.execute_accepts (allows_of_asked hasked) (congrArg Prod.fst h)
    rw [hrejected] at haccepted
    nomatch haccepted

theorem asked_of_reads {c : Config} (hc : s.around.setting.Gives c) (h : call.operation.reads c.maxCalldataBytes = true) :
    call.asked s.around.setting.load.1 = .ok (Manifest.getter, []) := by
  cases call with
  | named name args => exact Operation.reads_call_iff.mp h
  | raw data =>
    rw [asked, show s.around.setting.load.1 = .ok c from hc]
    exact (Operation.reads_callData_iff rfl).mp h

/-- A call is to write a number exactly if it asks to set it. -/
theorem written?_iff {c : Config} {n : Nat} :
    call.operation.written? c.maxCalldataBytes = some n ↔ call.asked (.ok c) = .ok (Manifest.setter, [n]) := by
  cases call with
  | named name args => exact Operation.written?_call_iff
  | raw data => exact Operation.written?_callData_iff rfl

theorem asked_of_written {c : Config} (hc : s.around.setting.Gives c) {n : Nat}
    (h : call.operation.written? c.maxCalldataBytes = some n) :
    call.asked s.around.setting.load.1 = .ok (Manifest.setter, [n]) := by
  rw [show s.around.setting.load.1 = .ok c from hc]
  exact written?_iff.mp h

/-- A call for the word fails as the slot does. -/
theorem act_of_getSlot_error (hs : s.backend.WellFormed) {f : Fault}
    (hasked : call.asked s.around.setting.load.1 = .ok (Manifest.getter, []))
    (h : ((Site.getSlot (.bytes slotKey)).perform s).1 = .error f) : (call.act.perform s).1 = .error f := by
  have hget := Site.getWord_of_error (Prod.ext h rfl)
  rw [act_of_asked hs hasked, List.map_nil, Site.execute_getter_error hget]

/-- A call to set the word fails as the slot does. -/
theorem act_of_setSlot_error (hs : s.backend.WellFormed) {n : Nat} {f : Fault}
    (hasked : call.asked s.around.setting.load.1 = .ok (Manifest.setter, [n]))
    (h : ((Site.setSlot (.bytes slotKey) (.bytes (Bytes.ofNat wordBytes n))).perform s).1 = .error f) :
    (call.act.perform s).1 = .error f := by
  have hset : (Site.setWord (.int n)).perform s = (.error f, _) :=
    (Site.setWord_perform (lt_of_asked hasked) s).trans (Prod.ext h rfl)
  rw [act_of_asked hs hasked, List.map_singleton, Site.execute_setter_error hset]

end

/-- Rejections depend on the call and the configuration alone. On hosts over memory or file backends that any history may have
left, with whatever files around them, the same call under the same configuration is rejected on both in the same words or on
neither, and a rejection leaves the backend and what it remembers as they were; the files take the one warning of the rejection
where the log is written to, and stay the same if it is written to none. A call that gets to the slot fails as the slot does, and
what is found in the slot is always a word that can be returned. -/
theorem rejected_by_call_alone (s₁ s₂ : Site) (reachable₁ : s₁.backend.Reachable) (reachable₂ : s₂.backend.Reachable)
    (same : s₁.around.setting.load.1 = s₂.around.setting.load.1) (call : HostCall) :
    (∀ e s₁', call.act.perform s₁ = (.ok e, s₁') → e.ok = false →
      ∃ report s₂', e = ⟨false, call.function, none, [], some report⟩ ∧ call.act.perform s₂ = (.ok e, s₂') ∧
        s₁.Untouched report s₁' ∧ s₂.Untouched report s₂' ∧
        ((∀ h ∈ s₁.around.journal.handlers, ∀ p, h.sink ≠ .file p) → s₁'.around.files = s₁.around.files) ∧
        ((∀ h ∈ s₂.around.journal.handlers, ∀ p, h.sink ≠ .file p) → s₂'.around.files = s₂.around.files)) ∧
    (∀ c f, s₁.around.setting.Gives c → call.operation.reads c.maxCalldataBytes = true →
      ((Site.getSlot (.bytes slotKey)).perform s₁).1 = .error f → (call.act.perform s₁).1 = .error f) ∧
    (∀ c n f, s₁.around.setting.Gives c → call.operation.written? c.maxCalldataBytes = some n →
      ((Site.setSlot (.bytes slotKey) (.bytes (Bytes.ofNat wordBytes n))).perform s₁).1 = .error f →
      (call.act.perform s₁).1 = .error f) ∧
    (∀ v, ((Site.getSlot (.bytes slotKey)).perform s₁).1 = .ok v →
      ∃ n data, (Site.getWord.perform s₁).1 = .ok n ∧ ReturnData.encode Manifest.getter (.int n) = .ok data) := by
  have hs₁ := reachable₁.wellFormed
  have hs₂ := reachable₂.wellFormed
  refine ⟨fun e s₁' hperform hrejected => ?_, fun c f hc hreads hslot => ?_, fun c n f hc hwritten hslot => ?_,
    fun v hslot => ?_⟩
  · obtain ⟨f, report, hasked, hrefusal, henvelope, huntouched₁⟩ := refused_of_rejected hs₁ hperform hrejected
    rw [same] at hasked
    obtain ⟨s₂', hperform₂, hrejection⟩ := act_of_refused hasked
    rw [hrefusal] at hperform₂
    obtain ⟨report₂, hagain, huntouched₂⟩ := hrejection e hrefusal
    obtain rfl : report = report₂ := by
      rw [henvelope] at hagain
      cases hagain
      rfl
    exact ⟨report, s₂', henvelope, hperform₂, huntouched₁, huntouched₂, huntouched₁.files_eq, huntouched₂.files_eq⟩
  · exact act_of_getSlot_error hs₁ (asked_of_reads hc hreads) hslot
  · exact act_of_setSlot_error hs₁ (asked_of_written hc hwritten) hslot
  · obtain ⟨n, hword⟩ := Site.getWord_of_found hs₁ (Prod.ext hslot rfl)
    exact ⟨n, _, congrArg Prod.fst hword, Site.returnData_getter (Site.lt_of_getWord hword)⟩

/-- A host over memory and one whose state file is unusable reject the same call alike; the latter fails to get its word. -/
theorem rejected_by_call_alone_over_unusable_file :
    let around : Surroundings := {
      setting := ⟨[], some ⟨none, "WARNING", none, 1024, 64⟩⟩
      files := ⟨[(["slots.json"], .file [123])]⟩
      medium := .sound "/work" "temporal"
      journal := .fresh
      stamp := ⟨"2025-01-01T00:00:00", 1, 1, 4096⟩ }
    let write : Operation := .storeSet (.int 7)
    let s₁ : Site := ⟨around, (write.act.perform ⟨around, .newMemory⟩).2.backend⟩
    let s₂ : Site := ⟨around, .newFile ⟨.here, ["slots.json"]⟩⟩
    let call : HostCall := .named "set" [.bool true]
    s₁.backend.Reachable ∧ s₂.backend.Reachable ∧ s₁.around.setting.load.1 = s₂.around.setting.load.1 ∧
      (∃ e s₁' s₂', e.ok = false ∧ call.act.perform s₁ = (.ok e, s₁') ∧ call.act.perform s₂ = (.ok e, s₂') ∧
        s₁'.backend = s₁.backend ∧ s₂'.backend = s₂.backend ∧ s₂'.around.files = s₂.around.files) ∧
      ∃ f, ((HostCall.named "get" []).act.perform s₂).1 = .error (.store (.stateFile f)) := by
  intro around write s₁ s₂ call
  have h₁ : s₁.backend.Reachable := .operation around write .memory
  have h₂ : s₂.backend.Reachable := .file _
  have hrejected : ∃ e s₁', call.act.perform s₁ = (.ok e, s₁') ∧ e.ok = false := ⟨_, _, rfl, rfl⟩
  obtain ⟨e, s₁', hperform, he⟩ := hrejected
  obtain ⟨report, s₂', -, hperform₂, hun₁, hun₂, -, hfiles⟩ := (rejected_by_call_alone s₁ s₂ h₁ h₂ rfl call).1 e s₁' hperform he
  have hslot : ∃ f, ((Site.getSlot (.bytes slotKey)).perform s₂).1 = .error (.store (.stateFile f)) := ⟨_, rfl⟩
  obtain ⟨f, hslot⟩ := hslot
  have hfault := (rejected_by_call_alone s₂ s₂ h₂ h₂ rfl (.named "get" [])).2.1 _ _ rfl rfl hslot
  exact ⟨h₁, h₂, rfl, ⟨e, s₁', s₂', he, hperform, hperform₂, hun₁.backend, hun₂.backend, hfiles nofun⟩, f, hfault⟩

/-- A log that is written to a file takes a line for each rejection, so that the files do not all stay the same. -/
theorem rejection_adds_to_log_file :
    let start : Surroundings :=
      ⟨⟨[], none⟩, .empty, .sound "/work" "temporal", .fresh, ⟨"2025-01-01T00:00:00", 1, 1, 4096⟩⟩
    let around := ((Surroundings.configureLog none (.text "WARNING") false (.text "log.jsonl")).perform start).2
    let s : Site := ⟨around, .newMemory⟩
    let call : HostCall := .named "put" []
    s.backend.Reachable ∧ (call.act.perform s).1.toOption.map (·.ok) = some false ∧
      (call.act.perform s).2.around.files ≠ s.around.files := by
  intro start around s call
  exact ⟨.memory, by decide +kernel, by decide +kernel⟩

end HostCall

end WordSlot
