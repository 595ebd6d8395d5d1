import WordSlot.Proofs.FileBackend
import WordSlot.Proofs.Register

/-!
# What a backend can come to hold

Whatever is done to a memory or file backend, through the host, its store or directly, and whatever becomes of its file in
between, it holds values of at most a word under keys that are not empty. So the word can always be read off what is found in
the slot, and the only faults of the store on a number in range are those of the backend.
-/

namespace WordSlot

open Outcome

namespace Backend

/-- A memory or file backend that holds slots as a state file can hold them, if it holds any. -/
def WellFormed : Backend → Prop
  | .memory slots => slots.WellFormed
  | .file _ held => ∀ slots, held = some slots → slots.WellFormed
  | .cell _ => False

/-- A memory or file backend as any history of operations and steps may have left it. Each of them may find other surroundings:
the files, the environment and the journal may change in any way in between. -/
inductive Reachable : Backend → Prop where
  | memory : Reachable .newMemory
  | file (path : Path) : Reachable (.newFile path)
  | operation {b : Backend} (around : Surroundings) (op : Operation) :
      Reachable b → Reachable (op.act.perform ⟨around, b⟩).2.backend
  | step {b : Backend} (around : Surroundings) (step : BackendStep) :
      Reachable b → Reachable (step.act.perform ⟨around, b⟩).2.backend

end Backend

namespace Site

/-! ## One step -/

/-- What a well-formed backend answers from is well formed. -/
theorem wellFormed_of_served {s : Site} {path : Path} {held : Option Slots} {slots : Slots} (hb : s.backend = .file path held)
    (hs : s.backend.WellFormed) (h : s.around.files.served path held = .ok slots) : slots.WellFormed := by
  rw [hb] at hs
  exact FileTree.served_wellFormed hs h

/-- Reading a slot keeps the backend well formed. -/
theorem getSlot_keeps (key : Value) : (getSlot key).Keeps (·.backend.WellFormed) := by
  intro s hs
  cases hb : s.backend with
  | memory slots =>
    rw [getSlot_memory hb]
    exact hs
  | file path held =>
    cases hk : (admission key s.around.setting).1 with
    | error f =>
      rw [getSlot_refused hb hk]
      exact hs
    | ok k =>
      cases hserved : s.around.files.served path held with
      | error f =>
        rw [getSlot_unserved hb hk hserved]
        exact hs
      | ok slots =>
        obtain ⟨around, hperform, -⟩ := getSlot_served hb hk hserved
        rw [hperform]
        rintro _ ⟨rfl⟩
        exact wellFormed_of_served hb hs hserved
  | cell v =>
    rw [hb] at hs
    exact hs.elim

/-- What is found in a slot is at most a word. -/
theorem getSlot_found {s : Site} (hs : s.backend.WellFormed) {key v : Value} (h : ((getSlot key).perform s).1 = .ok v) :
    v = .none ∨ ∃ b : Bytes, v = .bytes b ∧ b.length ≤ wordBytes := by
  have hfound : ∀ (slots : Slots) (k : Bytes), slots.WellFormed →
      slots.found k = .none ∨ ∃ b : Bytes, slots.found k = .bytes b ∧ b.length ≤ wordBytes := by
    intro slots k hwf
    unfold Slots.found
    cases hget : slots.get? k with
    | none => exact .inl rfl
    | some b =>
      refine .inr ⟨b, rfl, ?_⟩
      exact (hwf.bounded _ ((lookup_eq_some_iff_mem hwf.nodup).mp hget)).2
  cases hb : s.backend with
  | memory slots =>
    rw [getSlot_memory hb] at h
    obtain ⟨k, -, rfl⟩ := map_eq_ok.mp h
    rw [hb] at hs
    exact hfound slots k hs
  | file path held =>
    cases hk : (admission key s.around.setting).1 with
    | error f =>
      rw [getSlot_refused hb hk] at h
      nomatch h
    | ok k =>
      cases hserved : s.around.files.served path held with
      | error f =>
        rw [getSlot_unserved hb hk hserved] at h
        nomatch h
      | ok slots =>
        obtain ⟨around, hperform, -⟩ := getSlot_served hb hk hserved
        rw [hperform] at h
        cases h
        exact hfound slots k (wellFormed_of_served hb hs hserved)
  | cell w =>
    rw [hb] at hs
    exact hs.elim

/-- Setting a slot keeps the backend well formed. -/
theorem setSlot_keeps (key value : Value) : (setSlot key value).Keeps (·.backend.WellFormed) := by
  intro s hs
  cases hb : s.backend with
  | memory slots =>
    rw [hb] at hs
    rw [setSlot_memory hb]
    split
    · change s.backend.WellFormed
      rw [hb]
      exact hs
    · rename_i k w hkw
      obtain ⟨k', hk, hw⟩ := bind_eq_ok.mp hkw
      obtain ⟨w', hw', hpair⟩ := map_eq_ok.mp hw
      cases hpair
      exact hs.put (of_admission_eq_ok hk).2 (checkValue_eq_ok_iff.mp hw').2
  | file path held =>
    cases hadmitted : ((admission key s.around.setting).1 >>= fun k => (checkValue value).map fun w => (k, w)) with
    | error f =>
      rw [setSlot_refused hb hadmitted]
      exact hs
    | ok kw =>
      obtain ⟨k, hk, hchecked⟩ := bind_eq_ok.mp hadmitted
      obtain ⟨w, hw, -⟩ := map_eq_ok.mp hchecked
      cases hserved : s.around.files.served path held with
      | error f =>
        rw [setSlot_unserved hb hk hw hserved]
        exact hs
      | ok slots =>
        have hwf := wellFormed_of_served hb hs hserved
        obtain ⟨around, hset, -⟩ := setSlot_served hb hk hw hserved
        have hkept := flush_kept path (slots.put k w) ⟨around, .file path (some slots)⟩
        rw [hset, Act.perform_bind]
        cases hflush : (flush path (slots.put k w)).perform ⟨around, .file path (some slots)⟩ with
        | mk result s' =>
          rw [hflush] at hkept
          cases result with
          | error f =>
            change s'.backend.WellFormed
            rw [hkept.1]
            rintro _ ⟨rfl⟩
            exact hwf
          | ok done =>
            rintro _ ⟨rfl⟩
            exact hwf.put (of_admission_eq_ok hk).2 (checkValue_eq_ok_iff.mp hw).2
  | cell v =>
    rw [hb] at hs
    exact hs.elim

/-! ## The store and the host -/

/-- What is done around the backend keeps whatever holds of it. -/
theorem aroundAct_keeps {α : Type} (act : Act Surroundings α) (I : Backend → Prop) :
    (aroundAct act).Keeps fun s => I s.backend := fun _ h => h

/-- Reading the word keeps the backend well formed. -/
theorem getWord_keeps : getWord.Keeps (·.backend.WellFormed) := by
  refine .bind (getSlot_keeps _) fun raw => ?_
  split
  · exact Act.keeps_pure 0
  · exact Act.keeps_ofExcept _

/-- Setting the word keeps the backend well formed. -/
theorem setWord_keeps (v : Value) : (setWord v).Keeps (·.backend.WellFormed) :=
  .bind (Act.keeps_ofExcept _) fun _ => setSlot_keeps _ _

/-- Executing a method keeps the backend well formed. -/
theorem execute_keeps (m : Method) (args : List Value) : (execute m args).Keeps (·.backend.WellFormed) := by
  have hrest : ∀ (value : Option Nat) (returned : Value), (aroundAct (Surroundings.log hostLogger LogLevel.debug
      (.text "call applied") [] [("function", .text m.name)]) >>= fun _ => Act.ofExcept (ReturnData.encode m returned) >>=
        fun data => (pure ⟨true, .text m.name, value, data, none⟩ : Act Site Envelope)).Keeps (·.backend.WellFormed) := fun _ _ =>
    .bind (aroundAct_keeps _ Backend.WellFormed) fun _ => .bind (Act.keeps_ofExcept _) fun _ => Act.keeps_pure _
  unfold execute
  dsimp only
  split
  · split
    · exact .bind (Act.keeps_throw _) fun _ => hrest _ _
    · exact .bind (setWord_keeps _) fun _ => .bind (Act.keeps_pure _) fun _ => hrest _ _
  · split
    · exact .bind getWord_keeps fun _ => .bind (Act.keeps_pure _) fun _ => hrest _ _
    · exact .bind (Act.keeps_throw _) fun _ => hrest _ _

/-- Reporting a rejection keeps the backend well formed. -/
theorem orReject_keeps (function : Value) {act : Act Site Envelope} (h : act.Keeps (·.backend.WellFormed)) :
    (orReject function act).Keeps (·.backend.WellFormed) := by
  refine .tryCatch h fun f => ?_
  split
  · split
    · exact .bind (aroundAct_keeps _ Backend.WellFormed) fun _ => Act.keeps_pure _
    · exact Act.keeps_throw _
  · exact Act.keeps_throw _

end Site

/-- Every operation keeps the backend well formed. -/
theorem Operation.act_keeps (op : Operation) : op.act.Keeps (·.backend.WellFormed) := by
  cases op with
  | call name args =>
    refine .bind (Site.orReject_keeps name ?_) fun _ => Act.keeps_pure _
    exact .bind (Act.keeps_ofExcept _) fun m => .bind (Act.keeps_ofExcept _) fun ns => Site.execute_keeps m _
  | callData data =>
    refine .bind (Site.orReject_keeps .none ?_) fun _ => Act.keeps_pure _
    exact .bind (Act.keeps_ofExcept _) fun _ => .bind (Site.aroundAct_keeps _ Backend.WellFormed) fun _ =>
      .bind (Act.keeps_ofExcept _) fun asked => Site.execute_keeps asked.1 _
  | hostSet v =>
    exact .bind (.bind (Act.keeps_ofExcept _) fun _ => Site.setWord_keeps _) fun _ => Act.keeps_pure _
  | hostGet => exact .bind Site.getWord_keeps fun _ => Act.keeps_pure _
  | storeSet v => exact .bind (Site.setWord_keeps v) fun _ => Act.keeps_pure _
  | storeGet => exact .bind Site.getWord_keeps fun _ => Act.keeps_pure _
  | backendSet key value => exact .bind (Site.setSlot_keeps key value) fun _ => Act.keeps_pure _

/-- Every step of a backend keeps it well formed. -/
theorem BackendStep.act_keeps (step : BackendStep) : step.act.Keeps (·.backend.WellFormed) := by
  cases step with
  | get key => exact Site.getSlot_keeps key
  | set key value => exact .bind (Site.setSlot_keeps key value) fun _ => Act.keeps_pure _
  | reopen =>
    refine .bind (fun s hs => ?_) fun _ => Act.keeps_pure _
    change s.backend.reopened.WellFormed
    cases hb : s.backend with
    | memory slots =>
      rw [hb] at hs
      exact hs
    | file path held => exact nofun
    | cell v =>
      rw [hb] at hs
      exact hs

/-! ## Every history -/

/-- Whatever was done to it, a backend is well formed. -/
theorem Backend.Reachable.wellFormed {b : Backend} (h : b.Reachable) : b.WellFormed := by
  induction h with
  | memory => exact Slots.wellFormed_nil
  | file path => exact nofun
  | operation around op _ ih => exact op.act_keeps ⟨around, _⟩ ih
  | step around step _ ih => exact step.act_keeps ⟨around, _⟩ ih

namespace Site

/-- A slot that cannot be read fails the word. -/
theorem getWord_of_error {s s' : Site} {f : Fault} (h : (getSlot (.bytes slotKey)).perform s = (.error f, s')) :
    getWord.perform s = (.error f, s') := by
  rw [getWord, Act.perform_bind, h]

/-- Whatever is found in the slot is a word. -/
theorem getWord_of_found {s s' : Site} {v : Value} (hs : s.backend.WellFormed)
    (h : (getSlot (.bytes slotKey)).perform s = (.ok v, s')) : ∃ n, getWord.perform s = (.ok n, s') := by
  rw [getWord, Act.perform_bind, h]
  rcases getSlot_found hs (congrArg Prod.fst h) with rfl | ⟨b, rfl, hlen⟩
  · exact ⟨0, rfl⟩
  · have hword : ofWord (.bytes b) = .ok b.toNat := by simp [ofWord, Value.toBytes?, Nat.not_lt.mpr hlen]
    refine ⟨b.toNat, ?_⟩
    simp only [Act.perform_ofExcept, hword]

/-- Getting the word fails only as the backend does. -/
theorem getWord_fails {s : Site} (hs : s.backend.WellFormed) : Fails (getWord.perform s).1 (·.aboutValue = false) := by
  cases hget : (getSlot (.bytes slotKey)).perform s with
  | mk result s' =>
    cases result with
    | error f =>
      rw [getWord_of_error hget]
      exact fails_error (getSlot_raises _ s f (congrArg Prod.fst hget))
    | ok v =>
      obtain ⟨n, hword⟩ := getWord_of_found hs hget
      rw [hword]
      exact fails_ok n

/-- Setting a number in range is setting the slot to its word. -/
theorem setWord_perform {n : Nat} (hn : n < wordLimit) (s : Site) :
    (setWord (.int n)).perform s = (setSlot (.bytes slotKey) (.bytes (Bytes.ofNat wordBytes n))).perform s := by
  have hword : toWord (.int n) = .ok (Bytes.ofNat wordBytes n) := map_eq_ok.mpr ⟨n, requireWord_nat "value" hn, rfl⟩
  unfold setWord
  rw [Act.perform_bind, Act.perform_ofExcept, hword]

/-- Setting a number in range fails only as the backend does. -/
theorem setWord_fails {n : Nat} (hn : n < wordLimit) (s : Site) :
    Fails ((setWord (.int n)).perform s).1 (·.aboutValue = false) := by
  rw [setWord_perform hn]
  exact setSlot_raises _ _ s

end Site

end WordSlot
