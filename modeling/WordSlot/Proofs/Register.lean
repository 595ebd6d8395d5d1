import WordSlot.Proofs.Host

/-!
# The slot as a register

A host on a memory backend answers every read with the number of the write accepted last, zero before any was. `Holds` says
what number a site stands for; each action of the store and the host is shown to keep it or to replace it by the number it was
given, and the law for whole runs follows by induction over the operations.
-/

namespace WordSlot

open Outcome

/-- A number below the limit is a word. -/
theorem requireWord_nat (name : Text) {n : Nat} (h : n < wordLimit) : requireWord name (.int n) = .ok n := by
  rw [requireWord, if_neg (by omega), if_neg (by omega)]
  rfl

/-- A value is taken as a word exactly if it is a number from zero up to the limit. -/
theorem requireWord_eq_ok_iff {name : Text} {v : Value} {n : Nat} :
    requireWord name v = .ok n ↔ v = .int n ∧ n < wordLimit := by
  constructor
  · intro h
    cases v with
    | int m =>
      rw [requireWord] at h
      split at h
      · simp [bind_eq_ok] at h
      · split at h
        · simp at h
        · simp only [pure_eq_ok, Except.ok.injEq] at h
          constructor
          · congr 1
            omega
          · omega
    | _ => simp [requireWord] at h
  · rintro ⟨rfl, h⟩
    exact requireWord_nat name h

namespace Site

/-- A site on memory whose slot spells `n`, or is empty and `n` is zero, with a configuration under which the slot's key is
admitted. -/
structure Holds (c : Config) (n : Nat) (s : Site) : Prop where
  given : s.around.setting.Gives c
  room : wordBytes ≤ c.maxKeyBytes
  inRange : n < wordLimit
  slot : ∃ slots, s.backend = .memory slots ∧
    (slots.get? slotKey = some (Bytes.ofNat wordBytes n) ∨ slots.get? slotKey = none ∧ n = 0)

section

variable {c : Config} {n : Nat} {s : Site}

/-- A setting that gives the same configuration may change. -/
theorem Holds.withSetting (h : s.Holds c n) {setting : Setting} (hg : setting.Gives c) : (s.withSetting setting).Holds c n :=
  ⟨hg, h.room, h.inRange, h.slot⟩

/-- The journal has no part in what a site holds. -/
theorem Holds.logged (h : s.Holds c n) {lines : List (Path × Bytes)} {around : Surroundings}
    (hl : s.around.Logged lines around) :
    ({ s with around } : Site).Holds c n :=
  ⟨by rw [hl.setting]; exact h.given, h.room, h.inRange, h.slot⟩

/-- The slot's key is always admitted. -/
theorem Holds.admission (h : s.Holds c n) : (admission (.bytes slotKey) s.around.setting).1 = .ok slotKey :=
  admission_bytes h.given (by decide) (by rw [slotKey, Bytes.length_ofNat]; exact h.room)

/-- Getting the word gives the number that the site holds. -/
theorem Holds.getWord (h : s.Holds c n) : ∃ s', getWord.perform s = (.ok n, s') ∧ s'.Holds c n := by
  obtain ⟨slots, hb, hslot⟩ := h.slot
  refine ⟨_, ?_, h.withSetting (h.given.admission (.bytes slotKey))⟩
  unfold Site.getWord
  rw [Act.perform_bind, getSlot_memory hb, h.admission]
  simp only [Except.map, Slots.found]
  rcases hslot with hw | ⟨hnone, rfl⟩
  · have hn : n < 256 ^ wordBytes := h.inRange
    simp [hw, ofWord, Value.toBytes?, Bytes.toNat_ofNat wordBytes n hn]
  · simp [hnone]

/-- Setting a word replaces the number that the site holds. -/
theorem Holds.setWord (h : s.Holds c n) {v : Value} {m : Nat} (hv : requireWord "value" v = .ok m) :
    ∃ s', (setWord v).perform s = (.ok (), s') ∧ s'.Holds c m := by
  obtain ⟨slots, hb, -⟩ := h.slot
  have hword : checkValue (.bytes (Bytes.ofNat wordBytes m)) = .ok (Bytes.ofNat wordBytes m) :=
    checkValue_eq_ok_iff.mpr ⟨rfl, by simp⟩
  have hto : toWord v = .ok (Bytes.ofNat wordBytes m) := map_eq_ok.mpr ⟨m, hv, rfl⟩
  refine ⟨{ s.withSetting (WordSlot.admission (.bytes slotKey) s.around.setting).2 with
      backend := .memory (slots.put slotKey (Bytes.ofNat wordBytes m)) }, ?_,
    h.given.admission (.bytes slotKey), h.room, (requireWord_eq_ok_iff.mp hv).2, _, rfl, .inl ?_⟩
  · unfold Site.setWord
    rw [Act.perform_bind, Act.perform_ofExcept, hto]
    simp only [setSlot_memory hb, h.admission, hword, ok_bind, Except.map]
  · rw [Slots.get?_put, if_pos rfl]

end

/-- A value that is no word is refused before the backend is touched. -/
theorem setWord_of_error {v : Value} {f : Fault} (hv : requireWord "value" v = .error f) (s : Site) :
    (setWord v).perform s = (.error f, s) := by
  have hto : toWord v = .error f := by rw [toWord, hv]; rfl
  unfold setWord
  rw [Act.perform_bind, Act.perform_ofExcept, hto]

/-- The outcome of a call that set the word. -/
def setOutcome : Envelope := ⟨true, .text "set", none, Arguments.write [], none⟩

/-- The outcome of a call that got the word. -/
def getOutcome (n : Nat) : Envelope := ⟨true, .text "get", some n, Arguments.write [n], none⟩

/-- The word is always in range, whatever the backend gives for it. -/
theorem lt_of_getWord {s s' : Site} {n : Nat} (h : getWord.perform s = (.ok n, s')) : n < wordLimit := by
  unfold getWord at h
  rw [Act.perform_bind] at h
  split at h
  · rename_i raw s₁ _
    split at h
    · cases h
      decide
    · rw [Act.perform_ofExcept, Prod.mk.injEq] at h
      obtain ⟨h, -⟩ := h
      unfold ofWord at h
      split at h
      · rename_i b _
        split at h
        · cases h
        · rename_i hlong
          cases h
          calc b.toNat < 256 ^ b.length := Bytes.toNat_lt b
            _ ≤ 256 ^ wordBytes := Nat.pow_le_pow_right (by decide) (Nat.le_of_not_lt hlong)
      · cases h
  · cases h

section

variable {m : Method} {s s' : Site} {f : Fault}

/-- A method that sets fails as setting the word does. -/
theorem execute_set_error {v : Value} {args : List Value} (hname : m.name = "set")
    (h : (setWord v).perform s = (.error f, s')) : (execute m (v :: args)).perform s = (.error f, s') := by
  simp only [execute, hname, beq_self_eq_true, if_true, Act.perform_bind, h]

/-- What a host says once a call was applied. -/
def logApplied (name : Text) : Act Surroundings Unit :=
  Surroundings.log hostLogger LogLevel.debug (.text "call applied") [] [("function", .text name)]

/-- To say so is never a fault, and the files take the lines of the call's record. -/
theorem logApplied_performs (name : Text) (s : Surroundings) :
    ∃ s', (logApplied name).perform s = (.ok (), s') ∧ s.Logged (s.linesOf LogLevel.debug (.applied name)) s' :=
  Surroundings.log_performs hostLogger LogLevel.debug _ _ _ (fun _ => rfl) (by decide) (LogRecord.make_applied name) s

/-- A method that sets, once the word is set, ends where the journal was told of it. -/
theorem execute_set_logged {v : Value} {args : List Value} {around : Surroundings} (hname : m.name = "set")
    (h : (setWord v).perform s = (.ok (), s')) (hlog : (logApplied m.name).perform s'.around = (.ok (), around)) :
    (execute m (v :: args)).perform s =
      ((ReturnData.encode m .none).map fun data => ⟨true, .text m.name, none, data, none⟩, { s' with around }) := by
  rw [logApplied, hname] at hlog
  rw [hname]
  simp only [execute, hname, beq_self_eq_true, if_true, Act.perform_bind, h, Act.perform_pure, perform_aroundAct, hlog,
    Act.perform_ofExcept]
  cases ReturnData.encode m .none <;> rfl

/-- A method that sets, once the word is set, tells the journal and gives no value. -/
theorem execute_set_ok {v : Value} {args : List Value} (hname : m.name = "set")
    (h : (setWord v).perform s = (.ok (), s')) :
    ∃ around, (execute m (v :: args)).perform s =
        ((ReturnData.encode m .none).map fun data => ⟨true, .text m.name, none, data, none⟩, { s' with around }) ∧
      s'.around.Logged (s'.around.linesOf LogLevel.debug (.applied m.name)) around := by
  obtain ⟨around, hlog, hl⟩ := logApplied_performs m.name s'.around
  exact ⟨around, execute_set_logged hname h hlog, hl⟩

/-- A method that gets fails as getting the word does. -/
theorem execute_get_error {args : List Value} (hname : m.name = "get") (h : getWord.perform s = (.error f, s')) :
    (execute m args).perform s = (.error f, s') := by
  have hset : (("get" : Text) == "set") = false := rfl
  simp only [execute, hname, hset, beq_self_eq_true, if_true, Bool.false_eq_true, if_false, Act.perform_bind, h]

/-- A method that gets, once the word is got, ends where the journal was told of it. -/
theorem execute_get_logged {args : List Value} {n : Nat} {around : Surroundings} (hname : m.name = "get")
    (h : getWord.perform s = (.ok n, s')) (hlog : (logApplied m.name).perform s'.around = (.ok (), around)) :
    (execute m args).perform s =
      ((ReturnData.encode m (.int n)).map fun data => ⟨true, .text m.name, some n, data, none⟩, { s' with around }) := by
  have hset : (("get" : Text) == "set") = false := rfl
  rw [logApplied, hname] at hlog
  rw [hname]
  simp only [execute, hname, hset, beq_self_eq_true, if_true, Bool.false_eq_true, if_false, Act.perform_bind, h,
    Act.perform_pure, perform_aroundAct, hlog, Act.perform_ofExcept]
  cases ReturnData.encode m (.int n) <;> rfl

/-- A method that gets, once the word is got, tells the journal and gives the number if its outputs have room for it. -/
theorem execute_get_ok {args : List Value} {n : Nat} (hname : m.name = "get") (h : getWord.perform s = (.ok n, s')) :
    ∃ around, (execute m args).perform s =
        ((ReturnData.encode m (.int n)).map fun data => ⟨true, .text m.name, some n, data, none⟩, { s' with around }) ∧
      s'.around.Logged (s'.around.linesOf LogLevel.debug (.applied m.name)) around := by
  obtain ⟨around, hlog, hl⟩ := logApplied_performs m.name s'.around
  exact ⟨around, execute_get_logged hname h hlog, hl⟩

end

/-- Carrying out the setter fails as setting the word does. -/
theorem execute_setter_error {s s' : Site} {m : Nat} {f : Fault} (h : (setWord (.int m)).perform s = (.error f, s')) :
    (execute Manifest.setter [.int m]).perform s = (.error f, s') :=
  execute_set_error rfl h

/-- Carrying out the setter sets the word, tells the journal and gives no value. -/
theorem execute_setter_ok {s s' : Site} {m : Nat} (h : (setWord (.int m)).perform s = (.ok (), s')) :
    ∃ around, (execute Manifest.setter [.int m]).perform s = (.ok setOutcome, { s' with around }) ∧
      s'.around.Logged (s'.around.linesOf LogLevel.debug (.applied "set")) around :=
  execute_set_ok rfl h

/-- Carrying out the getter fails as getting the word does. -/
theorem execute_getter_error {s s' : Site} {f : Fault} (h : getWord.perform s = (.error f, s')) :
    (execute Manifest.getter []).perform s = (.error f, s') :=
  execute_get_error rfl h

/-- A word is returned as a list of one argument. -/
theorem returnData_getter {n : Nat} (h : n < wordLimit) :
    ReturnData.encode Manifest.getter (.int n) = .ok (Arguments.write [n]) := by
  have hfits : List.Forall₂ UIntType.Fits Manifest.getter.outputs [n] := .cons ((fits_widest n).mpr h) .nil
  exact Arguments.encode_ints hfits

/-- Carrying out the getter gets the word, tells the journal and gives the number. -/
theorem execute_getter_ok {s s' : Site} {n : Nat} (h : getWord.perform s = (.ok n, s')) :
    ∃ around, (execute Manifest.getter []).perform s = (.ok (getOutcome n), { s' with around }) ∧
      s'.around.Logged (s'.around.linesOf LogLevel.debug (.applied "get")) around := by
  obtain ⟨around, hexecute, hl⟩ := @execute_get_ok Manifest.getter s s' [] n rfl h
  rw [returnData_getter (lt_of_getWord h)] at hexecute
  exact ⟨around, hexecute, hl⟩

section

variable {c : Config} {n : Nat} {s : Site}

/-- Executing the setter writes the word. -/
theorem Holds.execute_setter (h : s.Holds c n) {m : Nat} (hm : m < wordLimit) :
    ∃ s', (execute Manifest.setter [.int m]).perform s = (.ok setOutcome, s') ∧ s'.Holds c m := by
  obtain ⟨s₁, hset, h₁⟩ := h.setWord (requireWord_nat "value" hm)
  obtain ⟨around, hexec, hl⟩ := execute_setter_ok hset
  exact ⟨_, hexec, h₁.logged hl⟩

/-- Executing the getter reads the word. -/
theorem Holds.execute_getter (h : s.Holds c n) :
    ∃ s', (execute Manifest.getter []).perform s = (.ok (getOutcome n), s') ∧ s'.Holds c n := by
  obtain ⟨s₁, hget, h₁⟩ := h.getWord
  obtain ⟨around, hexec, hl⟩ := execute_getter_ok hget
  exact ⟨_, hexec, h₁.logged hl⟩

/-- A fault in asking leaves the number that the site holds. -/
theorem Holds.carryOut_error (h : s.Holds c n) (function : Value) (f : Fault) :
    ∃ s', (carryOut function (.error f)).perform s = (refusal function f, s') ∧ s'.Holds c n := by
  obtain ⟨around, hperform, hl⟩ := WordSlot.Site.carryOut_error function f s
  exact ⟨_, hperform, h.logged hl⟩

/-- Carrying out the setter writes the word. -/
theorem Holds.carryOut_setter (h : s.Holds c n) (function : Value) {m : Nat} (hm : m < wordLimit) :
    ∃ s', (carryOut function (.ok (Manifest.setter, [m]))).perform s = (.ok setOutcome, s') ∧ s'.Holds c m := by
  obtain ⟨s', hexec, h'⟩ := h.execute_setter hm
  exact ⟨s', orReject_ok hexec, h'⟩

/-- Carrying out the getter reads the word. -/
theorem Holds.carryOut_getter (h : s.Holds c n) (function : Value) :
    ∃ s', (carryOut function (.ok (Manifest.getter, []))).perform s = (.ok (getOutcome n), s') ∧ s'.Holds c n := by
  obtain ⟨s', hexec, h'⟩ := h.execute_getter
  exact ⟨s', orReject_ok hexec, h'⟩

end

end Site

/-! ## Operations and their replies -/

/-- What can be done to a host, to its store and to its backend. -/
inductive Operation where
  | call (name args : Value)
  | callData (data : Value)
  | hostSet (value : Value)
  | hostGet
  | storeSet (value : Value)
  | storeGet
  | backendSet (key value : Value)

/-- What comes back: the outcome of a call, the word, that the word was set, or that some slot was. -/
inductive Reply where
  | outcome (e : Envelope)
  | word (n : Nat)
  | wordSet
  | slotSet

/-- A value is a given text. -/
def Value.isText (v : Value) (t : Text) : Bool :=
  match v with
  | .text s => s == t
  | _ => false

namespace Reply

/-- A write of the word was accepted. -/
def accepted : Except Fault Reply → Bool
  | .ok (.outcome e) => e.ok && e.function.isText "set"
  | .ok .wordSet => true
  | _ => false

/-- The word was read. -/
def isRead : Except Fault Reply → Bool
  | .ok (.outcome e) => e.ok && e.function.isText "get"
  | .ok (.word _) => true
  | _ => false

/-- The number that came back. -/
def number? : Except Fault Reply → Option Nat
  | .ok (.outcome e) => e.returned
  | .ok (.word n) => some n
  | _ => none

end Reply

namespace Operation

/-- Carries out an operation. -/
def act : Operation → Act Site Reply
  | .call name args => do pure (.outcome (← Site.call name args))
  | .callData data => do pure (.outcome (← Site.callData data))
  | .hostSet value => do Site.hostSet value; pure .wordSet
  | .hostGet | .storeGet => do pure (.word (← Site.getWord))
  | .storeSet value => do Site.setWord value; pure .wordSet
  | .backendSet key value => do Site.setSlot key value; pure .slotSet

/-- The number that an operation is to write: what the one argument of a call to set, or the value given to the host, is
taken as; the decoded argument of calldata; the very number given to the store. -/
def written? (most : Nat) : Operation → Option Nat
  | .call name args =>
    match name.isText "set", args.parts? with
    | true, some [v] => (coerceUInt 256 v).toOption
    | _, _ => none
  | .callData data =>
    match data.toBytes?.map (Calldata.decode most Manifest.packaged) with
    | some (.ok (m, [n])) => if m.name = "set" then some n else none
    | _ => none
  | .hostSet v => (coerceUInt 256 v).toOption
  | .storeSet (.int n) => if 0 ≤ n ∧ n < wordLimit then some n.toNat else none
  | _ => none

/-- An operation asks for the word. -/
def reads (most : Nat) : Operation → Bool
  | .call name args =>
    match name.isText "get", args.parts? with
    | true, some [] => true
    | _, _ => false
  | .callData data =>
    match data.toBytes?.map (Calldata.decode most Manifest.packaged) with
    | some (.ok (m, [])) => m.name == "get"
    | _ => false
  | .hostGet | .storeGet => true
  | _ => false

/-- An operation keeps away from the slot unless it goes through the store. -/
def SparesSlot : Operation → Prop
  | .backendSet key _ => key.toBytes? ≠ some slotKey
  | _ => True

/-- The number of an operation that was accepted. -/
def acceptedNumber? (most : Nat) (step : Operation × Except Fault Reply) : Option Nat :=
  if Reply.accepted step.2 then step.1.written? most else none

/-- The number of the write accepted last; zero if none was. -/
def lastWrite (most : Nat) (history : List (Operation × Except Fault Reply)) : Nat :=
  (history.filterMap (acceptedNumber? most)).getLastD 0

section

variable {c : Config} {n : Nat} {s : Site}

/-- A value is a text exactly if it is that text. -/
theorem isText_iff {v : Value} {t : Text} : v.isText t = true ↔ v = .text t := by
  cases v <;> simp [Value.isText]

/-- A call by name writes exactly what it asks of the setter. -/
theorem written?_call_iff {most m : Nat} {name args : Value} :
    (call name args).written? most = some m ↔ Site.request name args = .ok (Manifest.setter, [m]) := by
  have hne : Manifest.setter ≠ Manifest.getter := by decide
  simp only [request_eq_ok_iff, hne, false_and, or_false, true_and, List.cons.injEq, and_true]
  rw [written?]
  constructor
  · intro h
    split at h
    · rename_i v hname hparts
      exact ⟨isText_iff.mp hname, v, m, hparts, toOption_eq_some.mp h, rfl⟩
    · cases h
  · rintro ⟨rfl, v, k, hparts, hk, rfl⟩
    rw [hparts, isText_iff.mpr rfl]
    exact toOption_eq_some.mpr hk

/-- A call by name reads exactly if it asks for the getter. -/
theorem reads_call_iff {most : Nat} {name args : Value} :
    (call name args).reads most = true ↔ Site.request name args = .ok (Manifest.getter, []) := by
  have hne : Manifest.getter ≠ Manifest.setter := by decide
  simp only [request_eq_ok_iff, hne, false_and, false_or, true_and, and_true]
  rw [reads]
  constructor
  · intro h
    split at h
    · rename_i hname hparts
      exact ⟨isText_iff.mp hname, hparts⟩
    · cases h
  · rintro ⟨rfl, hparts⟩
    rw [hparts, isText_iff.mpr rfl]

/-- A call by bytes writes exactly what it decodes to for the setter. -/
theorem written?_callData_iff {most m : Nat} {data : Value} {b : Bytes} (hb : data.toBytes? = some b) :
    (callData data).written? most = some m ↔
      Calldata.decode most Manifest.packaged b = .ok (Manifest.setter, [m]) := by
  rw [written?, hb, Option.map_some]
  cases hd : Calldata.decode most Manifest.packaged b with
  | error f => simp
  | ok r =>
    obtain ⟨method, ns⟩ := r
    rcases decode_packaged hd with ⟨rfl, k, -, rfl⟩ | ⟨rfl, rfl⟩
    · have hname : Manifest.setter.name = "set" := rfl
      simp [hname]
    · simp

/-- A call by bytes reads exactly if it decodes to the getter. -/
theorem reads_callData_iff {most : Nat} {data : Value} {b : Bytes} (hb : data.toBytes? = some b) :
    (callData data).reads most = true ↔ Calldata.decode most Manifest.packaged b = .ok (Manifest.getter, []) := by
  rw [reads, hb, Option.map_some]
  cases hd : Calldata.decode most Manifest.packaged b with
  | error f => simp
  | ok r =>
    obtain ⟨method, ns⟩ := r
    rcases decode_packaged hd with ⟨rfl, k, -, rfl⟩ | ⟨rfl, rfl⟩
    · simp
    · have hname : Manifest.getter.name = "get" := rfl
      simp [hname]

/-- What an operation does on a site that holds `n`: it is accepted exactly if there is a number for it to write, which the
site holds from then on; it is a read exactly if it asks for the word, and gives `n`. -/
structure Lawful (c : Config) (n : Nat) (op : Operation) (reply : Except Fault Reply) (s : Site) : Prop where
  holds : s.Holds c ((op.written? c.maxCalldataBytes).getD n)
  accepted : Reply.accepted reply = (op.written? c.maxCalldataBytes).isSome
  isRead : Reply.isRead reply = op.reads c.maxCalldataBytes
  number : Reply.isRead reply = true → Reply.number? reply = some n

/-- An operation that writes no number and asks for none, and whose reply says neither. -/
theorem Lawful.of_neither {op : Operation} {reply : Except Fault Reply} (h : s.Holds c n)
    (hw : op.written? c.maxCalldataBytes = none) (hr : op.reads c.maxCalldataBytes = false)
    (ha : Reply.accepted reply = false) (hi : Reply.isRead reply = false) : Lawful c n op reply s where
  holds := by rw [hw]; exact h
  accepted := by rw [ha, hw]; rfl
  isRead := by rw [hi, hr]
  number := by rw [hi]; exact nofun

/-- A call, by name or as calldata, is lawful if it is to write and to read just what it asks for. -/
theorem lawful_carryOut (h : s.Holds c n) {op : Operation} {function : Value} {asked : Except Fault (Method × List Nat)}
    (hw : ∀ m, op.written? c.maxCalldataBytes = some m ↔ asked = .ok (Manifest.setter, [m]))
    (hr : op.reads c.maxCalldataBytes = true ↔ asked = .ok (Manifest.getter, []))
    (hasked : ∀ m ns, asked = .ok (m, ns) →
      m = Manifest.setter ∧ (∃ k, k < wordLimit ∧ ns = [k]) ∨ m = Manifest.getter ∧ ns = []) :
    Lawful c n op (((Site.carryOut function asked).perform s).1.map .outcome)
      ((Site.carryOut function asked).perform s).2 := by
  cases asked with
  | error f =>
    obtain ⟨s', hperform, h'⟩ := h.carryOut_error function f
    rw [hperform]
    refine .of_neither h' (Option.eq_none_iff_forall_ne_some.mpr fun m hm => ?_) (Bool.eq_false_iff.mpr fun hm => ?_) ?_ ?_
    · nomatch (hw m).mp hm
    · nomatch hr.mp hm
    · cases hf : Site.refusal function f with
      | error g => rfl
      | ok e => simp [Except.map, Reply.accepted, Site.not_ok_of_refusal hf]
    · cases hf : Site.refusal function f with
      | error g => rfl
      | ok e => simp [Except.map, Reply.isRead, Site.not_ok_of_refusal hf]
  | ok request =>
    obtain ⟨method, ns⟩ := request
    rcases hasked method ns rfl with ⟨rfl, k, hk, rfl⟩ | ⟨rfl, rfl⟩
    · obtain ⟨s', hperform, h'⟩ := h.carryOut_setter function hk
      have hwritten := (hw k).mpr rfl
      have hreads : op.reads c.maxCalldataBytes = false := Bool.eq_false_iff.mpr fun hm => by nomatch hr.mp hm
      rw [hperform]
      exact ⟨by rw [hwritten]; exact h', by rw [hwritten]; rfl, by rw [hreads]; rfl, nofun⟩
    · obtain ⟨s', hperform, h'⟩ := h.carryOut_getter function
      have hwritten : op.written? c.maxCalldataBytes = none :=
        Option.eq_none_iff_forall_ne_some.mpr fun m hm => by nomatch (hw m).mp hm
      rw [hperform]
      exact ⟨by rw [hwritten]; exact h', by rw [hwritten]; rfl, by rw [hr.mpr rfl]; rfl, fun _ => rfl⟩

/-- A call by name is lawful. -/
theorem lawful_call (h : s.Holds c n) (name args : Value) :
    Lawful c n (call name args) ((call name args).act.perform s).1 ((call name args).act.perform s).2 := by
  rw [act, Act.perform_bind_pure, Site.call_perform]
  refine lawful_carryOut h (fun m => written?_call_iff) reads_call_iff fun m ns hm => ?_
  rcases request_eq_ok_iff.mp hm with ⟨rfl, -, v, k, -, hk, rfl⟩ | ⟨rfl, -, -, rfl⟩
  · exact .inl ⟨rfl, k, coerceUInt_fits (t := .widest) hk, rfl⟩
  · exact .inr ⟨rfl, rfl⟩

/-- A call by bytes is lawful. -/
theorem lawful_callData (h : s.Holds c n) (data : Value) :
    Lawful c n (callData data) ((callData data).act.perform s).1 ((callData data).act.perform s).2 := by
  rw [act, Act.perform_bind_pure]
  cases hb : data.toBytes? with
  | some b =>
    rw [Site.callData_perform hb, show s.around.setting.load.1 = .ok c from h.given]
    exact lawful_carryOut (h.withSetting h.given.load) (fun m => written?_callData_iff hb) (reads_callData_iff hb)
      fun m ns => decode_packaged
  | none =>
    rw [Site.callData_not_bytes hb]
    refine lawful_carryOut h (fun m => ?_) ?_ nofun
    · simp [written?, hb]
    · simp [reads, hb]

/-- Setting the word through the store: accepted exactly if the value is a word. -/
theorem lawful_storeSet (h : s.Holds c n) (v : Value) :
    Lawful c n (storeSet v) ((storeSet v).act.perform s).1 ((storeSet v).act.perform s).2 := by
  have hwritten : ∀ m, (storeSet v).written? c.maxCalldataBytes = some m ↔ requireWord "value" v = .ok m := by
    intro m
    rw [requireWord_eq_ok_iff]
    cases v with
    | int k =>
      simp only [written?, Option.ite_none_right_eq_some, Option.some.injEq, Value.int.injEq]
      omega
    | _ => simp [written?]
  rw [act, Act.perform_bind_pure]
  cases hv : requireWord "value" v with
  | error f =>
    have hnone : (storeSet v).written? c.maxCalldataBytes = none :=
      Option.eq_none_iff_forall_ne_some.mpr fun m hm => by
        have hok := (hwritten m).mp hm
        rw [hv] at hok
        nomatch hok
    rw [Site.setWord_of_error hv]
    exact .of_neither h hnone rfl rfl rfl
  | ok m =>
    obtain ⟨s', hperform, h'⟩ := h.setWord hv
    have hsome := (hwritten m).mpr hv
    rw [hperform]
    exact ⟨by rw [hsome]; exact h', by rw [hsome]; rfl, rfl, nofun⟩

/-- Setting the word through the host: accepted exactly if the value is taken as a number that fits. -/
theorem lawful_hostSet (h : s.Holds c n) (v : Value) :
    Lawful c n (hostSet v) ((hostSet v).act.perform s).1 ((hostSet v).act.perform s).2 := by
  rw [act, Act.perform_bind_pure, Site.hostSet, Act.perform_bind, Act.perform_ofExcept]
  cases hv : coerceUInt 256 v with
  | error f =>
    have hnone : (hostSet v).written? c.maxCalldataBytes = none := by rw [written?, hv]; rfl
    exact .of_neither h hnone rfl rfl rfl
  | ok m =>
    have hm : m < wordLimit := coerceUInt_fits (t := .widest) hv
    obtain ⟨s', hperform, h'⟩ := h.setWord (requireWord_nat "value" hm)
    have hsome : (hostSet v).written? c.maxCalldataBytes = some m := toOption_eq_some.mpr hv
    simp only [hperform]
    exact ⟨by rw [hsome]; exact h', by rw [hsome]; rfl, rfl, nofun⟩

/-- Getting the word, through the host or the store. -/
theorem lawful_get (h : s.Holds c n) {op : Operation} (hop : op = hostGet ∨ op = storeGet) :
    Lawful c n op (op.act.perform s).1 (op.act.perform s).2 := by
  obtain ⟨s', hperform, h'⟩ := h.getWord
  rcases hop with rfl | rfl <;>
    · rw [act, Act.perform_bind_pure, hperform]
      exact ⟨h', rfl, rfl, fun _ => rfl⟩

/-- Another slot of the backend may be set or refused; the word stays. -/
theorem lawful_backendSet (h : s.Holds c n) (key value : Value) (hkey : key.toBytes? ≠ some slotKey) :
    Lawful c n (backendSet key value) ((backendSet key value).act.perform s).1
      ((backendSet key value).act.perform s).2 := by
  obtain ⟨slots, hb, hslot⟩ := h.slot
  have hgiven := h.given.admission key
  rw [act, Act.perform_bind_pure, Site.setSlot_memory hb]
  split
  · exact .of_neither (h.withSetting hgiven) rfl rfl rfl rfl
  · rename_i k w hkw
    obtain ⟨k', hk, hw⟩ := bind_eq_ok.mp hkw
    obtain ⟨w', -, hpair⟩ := map_eq_ok.mp hw
    cases hpair
    have hne : slotKey ≠ k := by
      rintro rfl
      exact hkey (of_admission_eq_ok hk).1
    refine .of_neither ⟨hgiven, h.room, h.inRange, slots.put k w, rfl, ?_⟩ rfl rfl rfl rfl
    rw [Slots.get?_put, if_neg hne]
    exact hslot

/-- Every operation that spares the slot is lawful. -/
theorem lawful_act (h : s.Holds c n) (op : Operation) (hop : op.SparesSlot) :
    Lawful c n op (op.act.perform s).1 (op.act.perform s).2 := by
  cases op with
  | call name args => exact lawful_call h name args
  | callData data => exact lawful_callData h data
  | hostSet v => exact lawful_hostSet h v
  | hostGet => exact lawful_get h (.inl rfl)
  | storeSet v => exact lawful_storeSet h v
  | storeGet => exact lawful_get h (.inr rfl)
  | backendSet key value => exact lawful_backendSet h key value hop

/-- The number that a lawful operation was accepted with is the one that it writes. -/
theorem Lawful.acceptedNumber? {op : Operation} {reply : Except Fault Reply} (h : Lawful c n op reply s) :
    acceptedNumber? c.maxCalldataBytes (op, reply) = op.written? c.maxCalldataBytes := by
  rw [Operation.acceptedNumber?, h.accepted]
  cases op.written? c.maxCalldataBytes <;> rfl

/-- After a run a site holds the number accepted last, or still the one it held before. -/
theorem holds_runAll {ops : List Operation} (h : s.Holds c n) (hops : ∀ op ∈ ops, op.SparesSlot) :
    (Act.runAll act ops s).2.Holds c
      (((Act.runAll act ops s).1.filterMap (Operation.acceptedNumber? c.maxCalldataBytes)).getLastD n) := by
  -- Each operation replaces `n` by what it was to write, if anything, so the induction is over the site and `n` alike.
  induction ops generalizing s n with
  | nil => exact h
  | cons op ops ih =>
    have hstep := lawful_act h op (hops op List.mem_cons_self)
    have hrest := ih hstep.holds fun op' hop' => hops op' (List.mem_cons_of_mem _ hop')
    rw [Act.runAll_cons, List.filterMap_cons, hstep.acceptedNumber?]
    cases hw : op.written? c.maxCalldataBytes with
    | none =>
      rw [hw] at hrest
      exact hrest
    | some m =>
      rw [hw] at hrest
      rw [List.getLastD_cons]
      exact hrest

end

/-- The slot is a register. On a fresh memory backend whose configuration admits the slot's key, after any operations `ops` on
the host, its store and other slots of its backend, the word is the number `n` of the write accepted last, zero if none was,
and lies below `2 ^ 256`. Whatever operation comes next, it is a read exactly if it asks for the word, and then gives `n`; it is
accepted exactly if there is a number for it to write, which is then the word; else the word stays. -/
theorem reads_give_last_accepted_write (s : Site) (c : Config) (fresh : s.backend = .newMemory)
    (given : s.around.setting.Gives c) (room : 32 ≤ c.maxKeyBytes) (ops : List Operation)
    (apart : ∀ op ∈ ops, op.SparesSlot) (next : Operation) (hnext : next.SparesSlot) :
    let most := c.maxCalldataBytes
    let s₁ := (Act.runAll act ops s).2
    let reply := (next.act.perform s₁).1
    let s₂ := (next.act.perform s₁).2
    let n := lastWrite most (Act.runAll act ops s).1
    n < 2 ^ 256 ∧ (Site.getWord.perform s₁).1 = .ok n ∧
      Reply.isRead reply = next.reads most ∧ (Reply.isRead reply = true → Reply.number? reply = some n) ∧
      Reply.accepted reply = (next.written? most).isSome ∧
      (∀ m, next.written? most = some m → m < 2 ^ 256 ∧ (Site.getWord.perform s₂).1 = .ok m) ∧
      (Reply.accepted reply = false → (Site.getWord.perform s₂).1 = .ok n) := by
  intro most s₁ reply s₂ n
  have hstart : s.Holds c 0 := ⟨given, room, by decide, [], fresh, .inr ⟨rfl, rfl⟩⟩
  have hrun : s₁.Holds c n := holds_runAll hstart apart
  have hstep : Lawful c n next reply s₂ := lawful_act hrun next hnext
  obtain ⟨s', hget, -⟩ := hrun.getWord
  obtain ⟨s'', hget', -⟩ := hstep.holds.getWord
  refine ⟨hrun.inRange, congrArg Prod.fst hget, hstep.isRead, hstep.number, hstep.accepted, fun m hm => ?_, fun ha => ?_⟩
  · have hholds := hstep.holds
    rw [show next.written? c.maxCalldataBytes = some m from hm] at hholds hget'
    exact ⟨hholds.inRange, congrArg Prod.fst hget'⟩
  · have hnone : next.written? c.maxCalldataBytes = none := by
      rw [hstep.accepted] at ha
      exact Option.not_isSome_iff_eq_none.mp (by rw [ha]; exact Bool.false_ne_true)
    rw [hnone] at hget'
    exact congrArg Prod.fst hget'

/-- The law for one write that is accepted, with two of values that are no words, one of another slot, a method that is not there
and bytes that are no call after it. -/
theorem reads_give_last_accepted_write_after_refusals :
    let s : Site := ⟨⟨⟨[], none⟩, .empty, .sound "/work" "temporal", .fresh, ⟨"2025-01-01T00:00:00", 1, 1, 4096⟩⟩, .newMemory⟩
    let c : Config := ⟨none, "WARNING", none, 1024, 64⟩
    let ops : List Operation := [.call (.text "set") (.list [.text " 0x_2A "]), .hostSet (.int (-1)), .storeSet (.bool true),
      .backendSet (.bytes [0]) (.bytes [9]), .call (.text "put") (.list [.int 7]), .callData (.bytes [1, 2, 3])]
    s.backend = .newMemory ∧ s.around.setting.Gives c ∧ 32 ≤ c.maxKeyBytes ∧ (∀ op ∈ ops, op.SparesSlot) ∧
      Reply.number? ((Operation.call (.text "get") (.tuple [])).act.perform (Act.runAll act ops s).2).1 = some 42 := by
  intro s c ops
  have hgiven : s.around.setting.Gives c := toOption_eq_some.mp (by decide +kernel)
  have hkey : ([0] : Bytes) ≠ slotKey := by decide
  have hapart : ∀ op ∈ ops, op.SparesSlot := by simpa [ops, SparesSlot, Value.toBytes?] using hkey
  have hlast : lastWrite c.maxCalldataBytes (Act.runAll act ops s).1 = 42 := by decide +kernel
  obtain ⟨-, -, hread, hnumber, -⟩ :=
    reads_give_last_accepted_write s c rfl hgiven (by decide) ops hapart (.call (.text "get") (.tuple [])) trivial
  refine ⟨rfl, hgiven, by decide, hapart, ?_⟩
  rw [← hlast]
  exact hnumber (hread.trans rfl)

end Operation

end WordSlot
