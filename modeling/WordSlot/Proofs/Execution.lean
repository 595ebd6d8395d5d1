import WordSlot.Proofs.Returns

/-!
# What carrying out a method does

A method is carried out by its name alone: one named `set` writes its first argument, one named `get` reads the word, and any
other is refused. The value is written before the return data is, so a method that sets and declares outputs fails with its number
already in the slot. On memory the three cases are all there is, for methods and arguments of every kind.
-/

namespace WordSlot

open Outcome

/-- The number that the slot spells; an empty slot stands for zero. -/
def Slots.word (slots : Slots) : Nat := ((slots.get? slotKey).map Bytes.toNat).getD 0

/-- The slots once the word is set. -/
def Slots.withWord (slots : Slots) (n : Nat) : Slots := slots.put slotKey (Bytes.ofNat wordBytes n)

theorem Slots.word_withWord (slots : Slots) {n : Nat} (h : n < wordLimit) : (slots.withWord n).word = n := by
  have hn : n < 256 ^ wordBytes := h
  rw [word, withWord, get?_put, if_pos rfl, Option.map_some, Option.getD_some, Bytes.toNat_ofNat wordBytes n hn]

/-- Carrying out a method with these arguments is to write a number: its name says so and the first argument is a number in
range. -/
def Method.Sets (m : Method) (args : List Value) (n : Nat) : Prop :=
  m.name = "set" ∧ args.head? = some (.int n) ∧ n < 2 ^ 256

theorem Method.Sets.unique {m : Method} {args : List Value} {n k : Nat} (hn : m.Sets args n) (hk : m.Sets args k) : n = k := by
  have hhead : some (Value.int n) = some (.int k) := hn.2.1.symm.trans hk.2.1
  simpa using hhead

namespace Site

/-- A site on memory with these slots, and with a configuration under which the slot's key is admitted. -/
structure OnMemory (c : Config) (slots : Slots) (s : Site) : Prop where
  backend : s.backend = .memory slots
  wellFormed : slots.WellFormed
  given : s.around.setting.Gives c
  room : wordBytes ≤ c.maxKeyBytes

section

variable {c : Config} {slots : Slots} {s : Site}

theorem OnMemory.logged (h : s.OnMemory c slots) {lines : List (Path × Bytes)} {around : Surroundings}
    (hl : s.around.Logged lines around) :
    ({ s with around } : Site).OnMemory c slots :=
  ⟨h.backend, h.wellFormed, by rw [hl.setting]; exact h.given, h.room⟩

theorem OnMemory.admission (h : s.OnMemory c slots) : (admission (.bytes slotKey) s.around.setting).1 = .ok slotKey :=
  admission_bytes h.given (by decide) (by rw [slotKey, Bytes.length_ofNat]; exact h.room)

/-- Getting the word gives what the slot spells; the configuration was asked for about the key. -/
theorem OnMemory.getWord_perform (h : s.OnMemory c slots) :
    getWord.perform s = (.ok slots.word, s.withSetting (WordSlot.admission (.bytes slotKey) s.around.setting).2) := by
  unfold Site.getWord
  rw [Act.perform_bind, getSlot_memory h.backend, h.admission]
  simp only [Except.map, Slots.found, Slots.word]
  cases hslot : slots.get? slotKey with
  | none => rfl
  | some b =>
    have hlength : b.length ≤ wordBytes := (h.wellFormed.bounded _ ((lookup_eq_some_iff_mem h.wellFormed.nodup).mp hslot)).2
    simp [ofWord, Value.toBytes?, Nat.not_lt.mpr hlength]

/-- Setting a number in range puts its word; the configuration was asked for about the key. -/
theorem OnMemory.setWord_perform (h : s.OnMemory c slots) {n : Nat} (hn : n < wordLimit) :
    (setWord (.int n)).perform s = (.ok (),
      { s.withSetting (WordSlot.admission (.bytes slotKey) s.around.setting).2 with backend := .memory (slots.withWord n) }) := by
  have hword : checkValue (.bytes (Bytes.ofNat wordBytes n)) = .ok (Bytes.ofNat wordBytes n) :=
    checkValue_eq_ok_iff.mpr ⟨rfl, by simp⟩
  rw [Site.setWord_perform hn, setSlot_memory h.backend, h.admission, hword]
  rfl

/-- Asking for the configuration leaves a site on its slots. -/
theorem OnMemory.withSetting (h : s.OnMemory c slots) {setting : Setting} (hg : setting.Gives c) :
    (s.withSetting setting).OnMemory c slots :=
  ⟨h.backend, h.wellFormed, hg, h.room⟩

/-- Putting a word leaves a site on the slots with that word. -/
theorem OnMemory.withWord (h : s.OnMemory c slots) (n : Nat) :
    ({ s with backend := .memory (slots.withWord n) } : Site).OnMemory c (slots.withWord n) :=
  ⟨rfl, h.wellFormed.put (by decide) (by simp), h.given, h.room⟩

/-- Getting the word gives what the slot spells and leaves the slots. -/
theorem OnMemory.getWord (h : s.OnMemory c slots) : ∃ s', getWord.perform s = (.ok slots.word, s') ∧ s'.OnMemory c slots :=
  ⟨_, h.getWord_perform, h.withSetting (h.given.admission _)⟩

/-- Setting a number in range puts its word. -/
theorem OnMemory.setWord (h : s.OnMemory c slots) {n : Nat} (hn : n < wordLimit) :
    ∃ s', (setWord (.int n)).perform s = (.ok (), s') ∧ s'.OnMemory c (slots.withWord n) :=
  ⟨_, h.setWord_perform hn, (h.withSetting (h.given.admission _)).withWord n⟩

/-- What carrying out a method on memory does: it writes a number, or gets the word, or fails and leaves all as it was. Only then
is the return data written, which may still fail. -/
theorem OnMemory.execute_cases (h : s.OnMemory c slots) (m : Method) (args : List Value) :
    (∃ n s', m.Sets args n ∧ s'.OnMemory c (slots.withWord n) ∧ (execute m args).perform s =
      ((ReturnData.encode m .none).map fun data => ⟨true, .text m.name, none, data, none⟩, s')) ∨
    (∃ s', m.name = "get" ∧ s'.OnMemory c slots ∧ (execute m args).perform s =
      ((ReturnData.encode m (.int slots.word)).map fun data => ⟨true, .text m.name, some slots.word, data, none⟩, s')) ∨
    ((¬∃ n, m.Sets args n) ∧ m.name ≠ "get" ∧ ∃ f, (execute m args).perform s = (.error f, s)) := by
  by_cases hset : m.name = "set"
  · have hget : m.name ≠ "get" := by rw [hset]; decide
    cases args with
    | nil =>
      have hnone : ¬∃ n, m.Sets [] n := by
        intro hsets
        obtain ⟨n, -, hhead, -⟩ := hsets
        cases hhead
      refine .inr (.inr ⟨hnone, hget, .misuse .outOfBounds, ?_⟩)
      simp only [execute, hset, beq_self_eq_true, if_true, Act.perform_bind, Act.perform_throw]
    | cons v args =>
      cases hv : requireWord "value" v with
      | ok n =>
        obtain ⟨rfl, hn⟩ := requireWord_eq_ok_iff.mp hv
        obtain ⟨s₁, hperform, h₁⟩ := h.setWord hn
        obtain ⟨around, hexecute, hl⟩ := execute_set_ok (m := m) hset hperform
        exact .inl ⟨n, _, ⟨hset, rfl, hn⟩, h₁.logged hl, hexecute⟩
      | error f =>
        refine .inr (.inr ⟨fun hsets => ?_, hget, f, execute_set_error hset (setWord_of_error hv s)⟩)
        obtain ⟨n, -, hhead, hn⟩ := hsets
        rw [requireWord_eq_ok_iff.mpr ⟨Option.some.inj hhead, hn⟩] at hv
        cases hv
  · by_cases hget : m.name = "get"
    · obtain ⟨s₁, hperform, h₁⟩ := h.getWord
      obtain ⟨around, hexecute, hl⟩ := @execute_get_ok m s s₁ args slots.word hget hperform
      exact .inr (.inl ⟨_, hget, h₁.logged hl, hexecute⟩)
    · have hnone : ¬∃ n, m.Sets args n := by
        intro hsets
        obtain ⟨n, hname, -⟩ := hsets
        exact hset hname
      refine .inr (.inr ⟨hnone, hget, .abi (.notImplemented m.name), ?_⟩)
      simp only [execute, beq_iff_eq, hset, hget, if_false, Act.perform_bind, Act.perform_throw]

/-- Nothing is no number for an output to give. -/
theorem returnsNothing_iff {m : Method} {done : Bytes → Envelope} :
    (∃ e, (ReturnData.encode m .none).map done = .ok e) ↔ m.outputs = [] := by
  have hnone : ∀ t : UIntType, ¬∃ n, coerceUInt t.bits .none = .ok n := fun t ⟨n, hn⟩ => nomatch hn
  simp [map_eq_ok, ReturnData.encode_accepts_iff, hnone]

/-- A word is given if there is no output, or one that has room for it. -/
theorem returnsWord_iff {m : Method} {done : Bytes → Envelope} {n : Nat} :
    (∃ e, (ReturnData.encode m (.int n)).map done = .ok e) ↔ m.outputs = [] ∨ ∃ t, m.outputs = [t] ∧ n < 2 ^ t.bits := by
  have htaken : ∀ t : UIntType, (∃ k, coerceUInt t.bits (.int n) = .ok k) ↔ n < 2 ^ t.bits := by
    intro t
    constructor
    · intro h
      obtain ⟨k, hk⟩ := h
      obtain ⟨hnk, hbits⟩ := fitUInt_eq_ok_iff.mp hk
      obtain rfl := Int.ofNat_inj.mp hnk
      exact (t.fits_iff n).mpr hbits
    · intro h
      exact ⟨n, coerceUInt_int h⟩
  simp [map_eq_ok, ReturnData.encode_accepts_iff, htaken]

end

/-- What becomes of carrying out any method with any arguments on a host over memory, as any history may have left it. If it is to
write a number, the number is in the slot afterwards, whether the method returns or fails; else the slots are as they were. It
returns exactly if it writes and declares no outputs, or gets the word and declares at most one output, which has room for the
word. So it fails and leaves another word behind exactly if it writes another word and declares outputs, and no method of the
slot's own manifest does so. -/
theorem execute_effect_exact (s : Site) (slots : Slots) (c : Config) (memory : s.backend = .memory slots)
    (reachable : s.backend.Reachable) (given : s.around.setting.Gives c) (room : 32 ≤ c.maxKeyBytes) :
    (∃ n, (getWord.perform s).1 = .ok n ∧ ∀ (m : Method) (args : List Value), ∃ result s',
      (execute m args).perform s = (result, s') ∧
      (∀ k, m.Sets args k →
        s'.backend = .memory (slots.put slotKey (Bytes.ofNat 32 k)) ∧ (getWord.perform s').1 = .ok k) ∧
      ((¬∃ k, m.Sets args k) → s'.backend = s.backend ∧ (getWord.perform s').1 = .ok n) ∧
      ((∃ e, result = .ok e) ↔
        (∃ k, m.Sets args k) ∧ m.outputs = [] ∨
        m.name = "get" ∧ (m.outputs = [] ∨ ∃ t, m.outputs = [t] ∧ n < 2 ^ t.bits)) ∧
      ((∃ f, result = .error f) ∧ (getWord.perform s').1 ≠ .ok n ↔ ∃ k, m.Sets args k ∧ m.outputs ≠ [] ∧ k ≠ n)) ∧
    ∃ ms, Manifest.methods Manifest.packaged = .ok ms ∧ ∀ m ∈ ms, m.name = "set" → m.outputs = [] := by
  have hs : s.OnMemory c slots := by
    have hwf := reachable.wellFormed
    rw [memory] at hwf
    exact ⟨memory, hwf, given, room⟩
  have hword : ∀ {s' : Site} {slots' : Slots}, s'.OnMemory c slots' → (getWord.perform s').1 = .ok slots'.word := by
    intro s' slots' h
    obtain ⟨s'', hget, -⟩ := h.getWord
    rw [hget]
  refine ⟨⟨slots.word, hword hs, fun m args => ?_⟩, _, Manifest.packaged_methods, by decide⟩
  rcases hs.execute_cases m args with ⟨n, s', hsets, hs', hexecute⟩ | ⟨s', hname, hs', hexecute⟩ | ⟨hsets, hname, f, hexecute⟩
  · have hget : m.name ≠ "get" := by rw [hsets.1]; decide
    have hafter : (getWord.perform s').1 = .ok n := by rw [hword hs', Slots.word_withWord slots hsets.2.2]
    refine ⟨_, s', hexecute, fun k hk => ?_, fun hnone => absurd ⟨n, hsets⟩ hnone, ?_, ?_⟩
    · rw [hk.unique hsets]
      exact ⟨hs'.backend, hafter⟩
    · simp only [returnsNothing_iff, hget, false_and, or_false]
      exact ⟨fun houtputs => ⟨⟨n, hsets⟩, houtputs⟩, fun h => h.2⟩
    · rw [exists_error_iff, returnsNothing_iff, hafter]
      constructor
      · intro h
        exact ⟨n, hsets, h.1, fun hn => h.2 (congrArg _ hn)⟩
      · intro h
        obtain ⟨k, hk, houtputs, hne⟩ := h
        obtain rfl := hk.unique hsets
        exact ⟨houtputs, fun hn => hne (Except.ok.inj hn)⟩
  · have hnone : ¬∃ k, m.Sets args k := by
      intro ⟨k, hk⟩
      rw [hk.1] at hname
      exact absurd hname (by decide)
    refine ⟨_, s', hexecute, fun k hk => absurd ⟨k, hk⟩ hnone, fun _ => ⟨hs'.backend.trans memory.symm, hword hs'⟩, ?_, ?_⟩
    · simp only [returnsWord_iff, hnone, hname, false_and, false_or, true_and]
    · constructor
      · intro h
        exact absurd (hword hs') h.2
      · intro h
        obtain ⟨k, hk, -⟩ := h
        exact absurd ⟨k, hk⟩ hnone
  · refine ⟨_, s, hexecute, fun k hk => absurd ⟨k, hk⟩ hsets, fun _ => ⟨rfl, hword hs⟩, ?_, ?_⟩
    · simp [hsets, hname]
    · constructor
      · intro h
        exact absurd (hword hs) h.2
      · intro h
        obtain ⟨k, hk, -⟩ := h
        exact absurd ⟨k, hk⟩ hsets

/-- The law on a host whose slot was written in part: a method that sets and declares an output fails with the number already
written, one that gets into a byte gives the word, and a truth value is not set. -/
theorem execute_effect_exact_after_short_write :
    let around : Surroundings := {
      setting := ⟨[], some ⟨none, "WARNING", none, 1024, 32⟩⟩
      files := .empty
      medium := .sound "/work" "temporal"
      journal := .fresh
      stamp := ⟨"2025-01-01T00:00:00", 1, 1, 4096⟩ }
    let write : Operation := .backendSet (.bytes slotKey) (.bytes [7])
    let s : Site := ⟨around, (write.act.perform ⟨around, .newMemory⟩).2.backend⟩
    let swap : Method := ⟨"set", [.widest], [.widest], "nonpayable"⟩
    let low : Method := ⟨"get", [], [⟨8, rfl⟩], "view"⟩
    s.backend = .memory [(slotKey, [7])] ∧ s.backend.Reachable ∧ s.around.setting.Gives ⟨none, "WARNING", none, 1024, 32⟩ ∧
      (∃ f s', (execute swap [.int 9, .none]).perform s = (.error f, s') ∧ (getWord.perform s').1 = .ok 9) ∧
      (∃ e s', (execute low [.int 9]).perform s = (.ok e, s') ∧ s'.backend = s.backend) ∧
      ∃ f s', (execute Manifest.setter [.bool true]).perform s = (.error f, s') ∧ (getWord.perform s').1 = .ok 7 := by
  intro around write s swap low
  have hb : s.backend = .memory [(slotKey, [7])] := rfl
  have hreachable : s.backend.Reachable := .operation around write .memory
  obtain ⟨⟨n, hn, heffect⟩, -⟩ := execute_effect_exact s _ _ hb hreachable rfl (by decide)
  obtain rfl : 7 = n := Except.ok.inj hn
  refine ⟨hb, hreachable, rfl, ?_, ?_, ?_⟩
  · obtain ⟨result, s', hperform, hset, -, hok, hfails⟩ := heffect swap [.int 9, .none]
    have hsets : swap.Sets [.int 9, .none] 9 := ⟨rfl, rfl, by norm_num⟩
    obtain ⟨⟨f, rfl⟩, -⟩ := hfails.mpr ⟨9, hsets, nofun, by decide⟩
    exact ⟨f, s', hperform, (hset 9 hsets).2⟩
  · obtain ⟨result, s', hperform, -, hkept, hok, -⟩ := heffect low [.int 9]
    obtain ⟨e, rfl⟩ := hok.mpr (.inr ⟨rfl, .inr ⟨_, rfl, by decide⟩⟩)
    refine ⟨e, s', hperform, (hkept fun ⟨k, hk⟩ => ?_).1⟩
    exact absurd hk.1 (by decide)
  · obtain ⟨result, s', hperform, -, hkept, hok, -⟩ := heffect Manifest.setter [.bool true]
    have hnone : ¬∃ k, Manifest.setter.Sets [.bool true] k := fun ⟨k, hk⟩ => nomatch hk.2.1
    obtain ⟨f, rfl⟩ : ∃ f, result = .error f := by
      rw [exists_error_iff, hok]
      intro h
      rcases h with h | h
      · exact hnone h.1
      · exact absurd h.1 (by decide)
    exact ⟨f, s', hperform, (hkept hnone).2⟩

end Site

end WordSlot
