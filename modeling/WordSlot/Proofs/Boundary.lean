import WordSlot.Proofs.Rejection
import WordSlot.Proofs.Reporting

/-!
# What a host on memory lets through

Every call on a host over memory comes back with an outcome, whatever was handed in, with one exception: a negative number that
has no decimal text cannot be named in the rejection, and that fault goes through. What is asked for either can be carried out or
is refused for a fault about a value, and on memory nothing that can be carried out fails.
-/

namespace WordSlot

open Outcome

/-! ## Faults in asking -/

theorem Fault.Rejects.aboutValue {f : Fault} {size : Nat} (h : f.Rejects size) : f.aboutValue = true := by
  obtain ⟨g, rfl, habout, -⟩ := h
  exact habout

/-- A name is looked up or refused. -/
theorem lookup_packaged_fails (name : Text) : Fails (Manifest.lookup Manifest.packaged (.text name)) (·.aboutValue = true) := by
  unfold Manifest.lookup
  rw [Manifest.packaged_methods, ok_bind]
  simp only [Value.canIndex, Bool.not_true, Bool.false_eq_true, if_false]
  split
  · exact fails_ok _
  · exact fails_error rfl

/-- A negative number without a decimal text cannot be refused as a value. -/
theorem coerceUInt_of_tooManyDigits {n : Int} (h : n ≤ -(10 ^ maxDecimalDigits : Int)) :
    coerceUInt 256 (.int n) = .error (.misuse .tooManyDigits) := by
  have hpow : (0 : Int) < 10 ^ maxDecimalDigits := Int.pow_pos (by norm_num)
  have hlarge : 10 ^ maxDecimalDigits ≤ n.natAbs := by
    zify
    rw [abs_of_neg (by omega)]
    omega
  unfold coerceUInt fitUInt
  dsimp only
  rw [if_pos (by omega), Json.decimalText_word (by norm_num), Json.decimalText_error hlarge, ok_bind, error_bind]

/-- Every other value is taken as a number or refused. -/
theorem coerceUInt_fails {v : Value} (h : ∀ n : Int, v = .int n → -(10 ^ maxDecimalDigits : Int) < n) :
    Fails (coerceUInt 256 v) (·.aboutValue = true) := by
  cases v with
  | text t => exact (coerceUInt_text_fails t).imp fun _ => Fault.Rejects.aboutValue
  | int n =>
    have hn := h n rfl
    have hfits : Fails (fitUInt 256 n) (Fault.Rejects (bitLength n.toNat)) := by
      refine fitUInt_fails (fun hneg => ?_) (by omega)
      zify
      rw [abs_of_neg hneg]
      omega
    exact hfits.imp fun _ => Fault.Rejects.aboutValue
  | _ => exact fails_error rfl

/-- A call by name asks for something that can be carried out or is refused, unless it is to set a number below zero that has no
text. -/
theorem request_fails {name : Text} {args : List Value}
    (h : ∀ n : Int, name = "set" → args = [.int n] → -(10 ^ maxDecimalDigits : Int) < n) :
    Fails (Site.request (.text name) (.list args)) (·.aboutValue = true) := by
  refine .bind (lookup_packaged_fails name) fun m hlookup => ?_
  obtain ⟨hname, hm⟩ := lookup_packaged_iff.mp hlookup
  clear hlookup
  cases hname
  by_cases hlen : args.length = m.inputs.length
  · rcases hm with rfl | rfl
    · obtain ⟨v, rfl⟩ := List.length_eq_one_iff.mp hlen
      have hv : Fails (coerceUInt 256 v) (·.aboutValue = true) := coerceUInt_fails fun n hn => h n rfl (by rw [hn])
      rw [coerceArguments_setter]
      exact .bind (hv.map _) fun _ _ => fails_ok _
    · obtain rfl := List.length_eq_zero_iff.mp hlen
      exact fails_ok _
  · have hcount : Site.coerceArguments m (.list args) = .error (.abi (.wrongArity m.signature m.inputs.length args.length)) :=
      if_pos hlen
    rw [hcount]
    exact fails_error rfl

/-! ## Outcomes -/

/-- A rejection says what was wrong with the call in the words of the call surface or of the domain, and returns nothing. -/
def Envelope.Explains (e : Envelope) : Prop :=
  e.ok = false → (∃ r, e.error = some r ∧ (r.code = "abi_error" ∨ r.code = "domain_violation")) ∧
    e.returned = none ∧ e.returnData = []

namespace Site

theorem refusal_explains (function : Value) {f : Fault} (h : f.aboutValue = true) :
    ∃ e, refusal function f = .ok e ∧ e.Explains := by
  cases f with
  | store g =>
    refine ⟨_, if_pos h, fun _ => ⟨⟨_, rfl, ?_⟩, rfl, rfl⟩⟩
    cases g with
    | abi g => exact .inl rfl
    | domain g => exact .inr rfl
    | storage g | stateFile g => nomatch h
  | misuse m | file g => nomatch h

section

variable {s : Site} {slots : Slots} {c : Config} (hb : s.backend = .memory slots) (hwf : slots.WellFormed)
  (given : s.around.setting.Gives c) (room : wordBytes ≤ c.maxKeyBytes)
include hb hwf given room

/-- On memory nothing that can be carried out fails. -/
theorem execute_memory {m : Method} {ns : List Nat} (h : Manifest.Allows m ns) :
    ∃ e s', (execute m (ns.map fun (n : Nat) => .int n)).perform s = (.ok e, s') := by
  have hkey : (admission (.bytes slotKey) s.around.setting).1 = .ok slotKey :=
    admission_bytes given (by decide) (by rw [slotKey, Bytes.length_ofNat]; exact room)
  rcases h with ⟨rfl, n, hn, rfl⟩ | ⟨rfl, rfl⟩
  · have hword : checkValue (.bytes (Bytes.ofNat wordBytes n)) = .ok (Bytes.ofNat wordBytes n) :=
      checkValue_eq_ok_iff.mpr ⟨rfl, by simp⟩
    have hset := setWord_perform hn s
    rw [setSlot_memory hb, hkey, hword] at hset
    obtain ⟨around, hexecute, -⟩ := execute_setter_ok hset
    exact ⟨_, _, hexecute⟩
  · have hslot := getSlot_memory hb (.bytes slotKey)
    rw [hkey] at hslot
    obtain ⟨n, hget⟩ := getWord_of_found (by rw [hb]; exact hwf) hslot
    obtain ⟨around, hexecute, -⟩ := execute_getter_ok hget
    exact ⟨_, _, hexecute⟩

/-- A call that asks for what is allowed, or fails in asking for a fault about a value, has an outcome. -/
theorem carryOut_memory (function : Value) {asked : Except Fault (Method × List Nat)}
    (hallows : ∀ m ns, asked = .ok (m, ns) → Manifest.Allows m ns) (hfails : Fails asked (·.aboutValue = true)) :
    ∃ e s', (carryOut function asked).perform s = (.ok e, s') ∧ e.Explains := by
  cases asked with
  | error f =>
    obtain ⟨around, hperform, -⟩ := carryOut_error function f s
    obtain ⟨e, hrefusal, hexplains⟩ := refusal_explains function (hfails f rfl)
    exact ⟨e, _, by rw [hperform, hrefusal], hexplains⟩
  | ok request =>
    obtain ⟨m, ns⟩ := request
    have hallowed := hallows m ns rfl
    obtain ⟨e, s', hexecute⟩ := execute_memory hb hwf given room hallowed
    have haccepted := execute_accepts hallowed (congrArg Prod.fst hexecute)
    refine ⟨e, s', ?_, fun hok => absurd hok (by rw [haccepted]; exact nofun)⟩
    rw [carryOut_allowed (by rw [hb]; exact hwf) function hallowed, hexecute]

end

/-- A host over memory, as any history may have left it, answers every call. Calldata may be any value; a call by name may have
any name and any values for arguments. Only to set a negative number that has no decimal text is a fault, a plain one, and it
leaves the slot as it was. Every rejection is explained and returns nothing. -/
theorem calls_on_memory_come_back (s : Site) (slots : Slots) (c : Config) (memory : s.backend = .memory slots)
    (reachable : s.backend.Reachable) (given : s.around.setting.Gives c) (room : 32 ≤ c.maxKeyBytes) :
    (∀ data : Value, ∃ e s', (callData data).perform s = (.ok e, s') ∧ e.Explains) ∧
    (∀ (name : Text) (args : List Value), (∀ n : Int, name = "set" → args = [.int n] → -(10 ^ 4300 : Int) < n) →
      ∃ e s', (call (.text name) (.list args)).perform s = (.ok e, s') ∧ e.Explains) ∧
    (∀ n : Int, n ≤ -(10 ^ 4300 : Int) →
      ∃ s', (call (.text "set") (.list [.int n])).perform s = (.error (.misuse .tooManyDigits), s') ∧
        s'.backend = s.backend) := by
  have hwf : slots.WellFormed := by
    have h := reachable.wellFormed
    rwa [memory] at h
  refine ⟨fun data => ?_, fun name args hargs => ?_, fun n hn => ?_⟩
  · cases hbytes : data.toBytes? with
    | none =>
      rw [callData_not_bytes hbytes]
      exact carryOut_memory memory hwf given room .none nofun (fails_error rfl)
    | some b =>
      have hload : s.around.setting.load.1 = .ok c := given
      rw [callData_perform hbytes, hload, ok_bind]
      refine carryOut_memory (s := s.withSetting s.around.setting.load.2) memory hwf given.load room .none
        (fun m ns h => decode_packaged h) ?_
      exact (Calldata.decode_fails c.maxCalldataBytes b).imp fun _ => Fault.Rejects.aboutValue
  · rw [call_perform]
    exact carryOut_memory memory hwf given room _ (fun m ns h => allows_of_request h) (request_fails hargs)
  · have hasked : request (.text "set") (.list [.int n]) = .error (.misuse .tooManyDigits) := by
      rw [request_set, coerceUInt_of_tooManyDigits hn]
      rfl
    obtain ⟨around, hperform, -⟩ := carryOut_error (.text "set") (.misuse .tooManyDigits) s
    exact ⟨{ s with around }, by rw [call_perform, hasked, hperform]; rfl, rfl⟩

/-- The law on a host whose slot was written in part, directly on its backend: calldata of another kind and a call to nobody come
back rejected, the word can be got, and the number without a text is a fault. -/
theorem calls_on_memory_come_back_after_short_write :
    let around : Surroundings := {
      setting := ⟨[], some ⟨none, "WARNING", none, 1024, 32⟩⟩
      files := .empty
      medium := .sound "/work" "temporal"
      journal := .fresh
      stamp := ⟨"2025-01-01T00:00:00", 1, 1, 4096⟩ }
    let write : Operation := .backendSet (.bytes slotKey) (.bytes [7])
    let s : Site := ⟨around, (write.act.perform ⟨around, .newMemory⟩).2.backend⟩
    s.backend = .memory [(slotKey, [7])] ∧ s.backend.Reachable ∧ s.around.setting.Gives ⟨none, "WARNING", none, 1024, 32⟩ ∧
      (∃ e s', (callData (.list [.int 5])).perform s = (.ok e, s') ∧ e.Explains) ∧
      (∃ e s', (call (.text "nobody") (.list [.none, .bool true])).perform s = (.ok e, s') ∧ e.Explains) ∧
      (∃ e s', (call (.text "get") (.list [])).perform s = (.ok e, s') ∧ e.Explains) ∧
      ∃ s', (call (.text "set") (.list [.int (-(10 ^ 4300))])).perform s = (.error (.misuse .tooManyDigits), s') ∧
        s'.backend = s.backend := by
  intro around write s
  have hb : s.backend = .memory [(slotKey, [7])] := rfl
  have hreachable : s.backend.Reachable := .operation around write .memory
  obtain ⟨hdata, hcall, hset⟩ := calls_on_memory_come_back s _ _ hb hreachable rfl (by decide)
  exact ⟨hb, hreachable, rfl, hdata _, hcall "nobody" _ (fun n hname => nomatch hname),
    hcall "get" _ (fun n hname => nomatch hname), hset _ le_rfl⟩

end Site

end WordSlot
