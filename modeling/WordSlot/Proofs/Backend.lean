import WordSlot.Proofs.LogFiles
import WordSlot.Store

/-!
# Surroundings and backends, step by step

What each action on a backend gives and leaves behind, said once. The configuration, once it can be read, is the same ever after; a
key is admitted or refused by the setting alone. From that, what a memory backend does is one equation for each of its two actions.
-/

namespace WordSlot

open Outcome

namespace Setting

/-- Reading the configuration gives `c`. -/
def Gives (s : Setting) (c : Config) : Prop := s.load.1 = .ok c

/-- Reading the configuration once more gives and leaves the same. -/
theorem load_load (s : Setting) : s.load.2.load = s.load := by
  unfold load
  cases hs : s.cached with
  | some c => simp only [hs]
  | none =>
    cases hc : Config.ofEnvironment s.env with
    | error f => simp only [hs, hc]
    | ok c => rfl

/-- A configuration that was read is kept. -/
theorem Gives.load {s : Setting} {c : Config} (h : s.Gives c) : s.load.2.Gives c := by
  unfold Gives
  rw [load_load]
  exact h

end Setting

/-- What the setting makes of a key: the key's bytes if they are admitted, and the setting after it was asked. -/
def admission (key : Value) (setting : Setting) : Except Fault Bytes × Setting :=
  match keyBytes key with
  | .error f => (.error f, setting)
  | .ok b =>
    match setting.load with
    | (.error f, setting) => (.error f, setting)
    | (.ok c, setting) => (checkKeyLength c.maxKeyBytes b, setting)

/-- A key is taken exactly if it is bytes, and some. -/
theorem keyBytes_eq_ok_iff {key : Value} {b : Bytes} : keyBytes key = .ok b ↔ key.toBytes? = some b ∧ b ≠ [] := by
  unfold keyBytes
  cases key.toBytes? with
  | none => simp
  | some a =>
    cases a with
    | nil =>
      simp only [List.isEmpty_nil, if_true, throw_eq_error, reduceCtorEq, Option.some.injEq, false_iff, not_and]
      rintro rfl
      simp
    | cons x a =>
      simp only [List.isEmpty_cons, Bool.false_eq_true, if_false, pure_eq_ok, Except.ok.injEq, Option.some.injEq]
      constructor
      · rintro rfl
        exact ⟨rfl, List.cons_ne_nil x a⟩
      · exact fun h => h.1

/-- A key is taken exactly up to the longest. -/
theorem checkKeyLength_eq_ok_iff {most : Nat} {key b : Bytes} :
    checkKeyLength most key = .ok b ↔ key = b ∧ key.length ≤ most := by
  unfold checkKeyLength
  split
  · rename_i h
    simp only [throw_eq_error, reduceCtorEq, false_iff, not_and]
    omega
  · rename_i h
    simp only [pure_eq_ok, Except.ok.injEq]
    exact ⟨fun hb => ⟨hb, by omega⟩, fun hb => hb.1⟩

/-- The bytes of a slot are taken exactly up to a word. -/
theorem checkValue_eq_ok_iff {value : Value} {b : Bytes} :
    checkValue value = .ok b ↔ value.toBytes? = some b ∧ b.length ≤ wordBytes := by
  unfold checkValue
  cases value.toBytes? with
  | none => simp
  | some a =>
    simp only [Option.some.injEq]
    split
    · rename_i h
      simp only [throw_eq_error, reduceCtorEq, false_iff, not_and]
      rintro rfl
      omega
    · rename_i h
      simp only [pure_eq_ok, Except.ok.injEq]
      constructor
      · rintro rfl
        exact ⟨rfl, by omega⟩
      · exact fun hb => hb.1

/-- An admitted key is a byte string that is not empty. -/
theorem of_admission_eq_ok {key : Value} {setting : Setting} {b : Bytes} (h : (admission key setting).1 = .ok b) :
    key.toBytes? = some b ∧ b ≠ [] := by
  unfold admission at h
  cases hk : keyBytes key with
  | error f => simp [hk] at h
  | ok a =>
    cases hl : setting.load with
    | mk result after =>
      cases result with
      | error f => simp [hk, hl] at h
      | ok c =>
        simp only [hk, hl] at h
        obtain ⟨rfl, -⟩ := checkKeyLength_eq_ok_iff.mp h
        exact keyBytes_eq_ok_iff.mp hk

/-- Asking about a key does not change what the setting gives. -/
theorem Setting.Gives.admission {setting : Setting} {c : Config} (h : setting.Gives c) (key : Value) :
    (admission key setting).2.Gives c := by
  unfold WordSlot.admission
  cases keyBytes key with
  | error f => exact h
  | ok b =>
    have hload := h.load
    cases hl : setting.load with
    | mk result after =>
      rw [hl] at hload
      cases result with
      | error f => exact hload
      | ok d => exact hload

/-- Asking about a key does not change what becomes of another. -/
theorem admission_admission (key key' : Value) (setting : Setting) :
    (admission key' (admission key setting).2).1 = (admission key' setting).1 := by
  have hload : (admission key setting).2 = setting ∨ (admission key setting).2 = setting.load.2 := by
    unfold admission
    cases keyBytes key with
    | error f => exact .inl rfl
    | ok b =>
      rcases hl : setting.load with ⟨f | c, after⟩
      · exact .inr rfl
      · exact .inr rfl
  rcases hload with hsame | hloaded
  · rw [hsame]
  · rw [hloaded]
    unfold admission
    rw [Setting.load_load]
    cases keyBytes key' with
    | error f => rfl
    | ok b => rfl

/-- A key that is not empty and no longer than the configuration allows is admitted. -/
theorem admission_bytes {setting : Setting} {c : Config} (h : setting.Gives c) {b : Bytes} (hne : b ≠ [])
    (hlen : b.length ≤ c.maxKeyBytes) : (admission (.bytes b) setting).1 = .ok b := by
  have hk : keyBytes (.bytes b) = .ok b := keyBytes_eq_ok_iff.mpr ⟨rfl, hne⟩
  unfold admission
  cases hl : setting.load with
  | mk result after =>
    have hc : result = .ok c := by
      unfold Setting.Gives at h
      rwa [hl] at h
    simp only [hk, hc]
    exact checkKeyLength_eq_ok_iff.mpr ⟨rfl, hlen⟩

namespace Site

/-- A site with another setting. -/
def withSetting (s : Site) (setting : Setting) : Site := { s with around := { s.around with setting } }

/-- An action on the surroundings leaves the backend. -/
theorem perform_aroundAct {α : Type} (act : Act Surroundings α) (s : Site) :
    (aroundAct act).perform s = ((act.perform s.around).1, { s with around := (act.perform s.around).2 }) := rfl

/-- Admitting a key changes the setting only. -/
theorem admitKey_perform (key : Value) (s : Site) :
    (admitKey key).perform s =
      ((admission key s.around.setting).1, s.withSetting (admission key s.around.setting).2) := by
  unfold admitKey admission
  cases hk : keyBytes key with
  | error f => simp [Act.perform_bind, withSetting]
  | ok b =>
    have hload : (aroundAct Surroundings.config).perform s =
        (s.around.setting.load.1, s.withSetting s.around.setting.load.2) := rfl
    cases hl : s.around.setting.load with
    | mk result after =>
      rw [hl] at hload
      cases result with
      | error f => simp [Act.perform_bind, hload, withSetting]
      | ok c => simp [Act.perform_bind, hload, withSetting]

end Site

namespace Slots

/-- The first slot of a key is found. -/
theorem get?_cons (k v : Bytes) (slots : Slots) (key : Bytes) :
    get? ((k, v) :: slots) key = if key = k then some v else slots.get? key := by
  unfold get?
  rw [List.lookup_cons]
  by_cases h : key = k
  · rw [if_pos h, beq_iff_eq.mpr h]
  · rw [if_neg h, beq_eq_false_iff_ne.mpr h]

/-- A value that was put is under its key, and the others are where they were. -/
theorem get?_put (slots : Slots) (k w key : Bytes) :
    (slots.put k w).get? key = if key = k then some w else slots.get? key := by
  induction slots with
  | nil => rw [put, get?_cons]
  | cons e slots ih =>
    obtain ⟨a, v⟩ := e
    rw [put]
    split
    · rename_i h
      subst h
      rw [get?_cons, get?_cons]
      split <;> rfl
    · rename_i h
      rw [get?_cons, get?_cons, ih]
      by_cases hk : key = a
      · rw [if_pos hk, if_pos hk, if_neg fun hkk => h (hk.symm.trans hkk)]
      · rw [if_neg hk, if_neg hk]

/-- What is found under a key: its bytes, or nothing. -/
def found (slots : Slots) (key : Bytes) : Value :=
  match slots.get? key with
  | some b => .bytes b
  | none => .none

end Slots

namespace Site

/-- Getting from memory: the key is admitted and looked up. -/
theorem getSlot_memory {s : Site} {slots : Slots} (h : s.backend = .memory slots) (key : Value) :
    (getSlot key).perform s =
      ((admission key s.around.setting).1.map slots.found, s.withSetting (admission key s.around.setting).2) := by
  unfold getSlot
  rw [Act.perform_bind, Act.perform_get]
  simp only [h, Act.perform_bind, admitKey_perform]
  cases (admission key s.around.setting).1 with
  | error f => rfl
  | ok b => rfl

/-- Setting in memory: the key is admitted, then the value is checked, then it is put. -/
theorem setSlot_memory {s : Site} {slots : Slots} (h : s.backend = .memory slots) (key value : Value) :
    (setSlot key value).perform s =
      match (admission key s.around.setting).1 >>= fun k => (checkValue value).map fun w => (k, w) with
      | .error f => (.error f, s.withSetting (admission key s.around.setting).2)
      | .ok (k, w) =>
        (.ok (), { s.withSetting (admission key s.around.setting).2 with backend := .memory (slots.put k w) }) := by
  unfold setSlot
  rw [Act.perform_bind, Act.perform_get]
  simp only [h, Act.perform_bind, admitKey_perform]
  cases (admission key s.around.setting).1 with
  | error f => rfl
  | ok b =>
    cases hv : checkValue value with
    | error f => rfl
    | ok w => rfl

end Site

end WordSlot
