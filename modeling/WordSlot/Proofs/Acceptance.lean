import WordSlot.Proofs.FileBackend

/-!
# What is taken as a state file

`Describes` says in its own words what a state file is and which slots it holds. Bytes are decoded as slots exactly if they
describe them. A backend that finds anything else at its path fails every access as a fault of the state file, writes nothing and
remembers nothing, so that it serves whatever document is put there later.
-/

namespace WordSlot

open Outcome

namespace StateFile

/-- What counts as the version: the number one, also as a double, or the truth value that equals it. -/
def IsVersion (v : Value) : Prop := v = .int 1 ∨ v = .bool true ∨ ∃ x, v = .real x ∧ x.toInt? = some 1

/-- A member of the slots object spells a slot: marked hex for a key of at least one byte, and for a value of at most a word. -/
structure Spells (member : Value × Value) (slot : Bytes × Bytes) : Prop where
  key : member.1.SpellsHex slot.1
  value : member.2.SpellsHex slot.2
  nonempty : slot.1 ≠ []
  short : slot.2.length ≤ 32

/-- Bytes that are a state file with the given slots: UTF-8 text of a JSON object with a version that counts, and with an object
of slots or without slots. Of members that spell the same key, the last one counts. -/
def Describes (content : Bytes) (slots : Slots) : Prop :=
  ∃ cs members version, content = Utf8.encode cs ∧ Json.read maxNesting (unifyLines cs) = .ok (.dict members) ∧
    Value.field? "version" members = some version ∧ IsVersion version ∧
    (Value.field? "slots" members = none ∧ slots = [] ∨
      ∃ entries puts, Value.field? "slots" members = some (.dict entries) ∧ List.Forall₂ Spells entries puts ∧
        slots = Slots.putAll [] puts)

theorem same_version_iff (v : Value) : v.same (.int version) = true ↔ IsVersion v := by
  unfold IsVersion version
  cases v with
  | bool b => cases b <;> simp [Value.same]
  | _ => simp [Value.same]

/-- Members are read exactly if each of them spells a slot, and then the slots are put in turn. -/
theorem readSlots_eq_ok_iff {acc slots : Slots} {members : List (Value × Value)} :
    readSlots acc members = .ok slots ↔ ∃ puts, List.Forall₂ Spells members puts ∧ slots = acc.putAll puts := by
  induction members generalizing acc with
  | nil =>
    simp only [readSlots, Except.ok.injEq, List.forall₂_nil_left_iff, exists_eq_left]
    exact eq_comm
  | cons member members ih =>
    obtain ⟨k, v⟩ := member
    simp only [readSlots, bind_eq_ok, readPart_eq_ok_iff, List.forall₂_cons_left_iff]
    constructor
    · rintro ⟨key, hkey, value, hvalue, h⟩
      split at h
      · cases h
      · rename_i hempty
        split at h
        · cases h
        · rename_i hlong
          obtain ⟨puts, hputs, rfl⟩ := ih.mp h
          have hspells : Spells (k, v) (key, value) := ⟨hkey, hvalue, by simpa using hempty, Nat.le_of_not_lt hlong⟩
          exact ⟨_, ⟨(key, value), puts, hspells, hputs, rfl⟩, rfl⟩
    · rintro ⟨_, ⟨⟨key, value⟩, puts, hspells, hputs, rfl⟩, rfl⟩
      have hempty : key.isEmpty = false := by simpa using hspells.nonempty
      have hshort : ¬ wordBytes < value.length := Nat.not_lt.mpr hspells.short
      refine ⟨key, hspells.key, value, hspells.value, ?_⟩
      rw [hempty, if_neg Bool.false_ne_true, if_neg hshort]
      exact ih.mpr ⟨puts, hputs, rfl⟩

/-- A document has slots exactly if it is an object with a version that counts and its slots, if any, are spelled out. -/
theorem ofDocument_eq_ok_iff {document : Value} {slots : Slots} :
    ofDocument document = .ok slots ↔
      ∃ members version, document = .dict members ∧ Value.field? "version" members = some version ∧ IsVersion version ∧
        (Value.field? "slots" members = none ∧ slots = [] ∨
          ∃ entries puts, Value.field? "slots" members = some (.dict entries) ∧ List.Forall₂ Spells entries puts ∧
            slots = Slots.putAll [] puts) := by
  constructor
  · intro h
    cases document with
    | dict members =>
      rw [ofDocument] at h
      split at h
      · cases h
      · rename_i hversion
        simp only [Bool.not_eq_true', Bool.not_eq_false, same_version_iff] at hversion
        cases hfield : Value.field? "version" members with
        | none =>
          rw [hfield] at hversion
          rcases hversion with hv | hv | ⟨x, hv, -⟩ <;> cases hv
        | some version =>
          rw [hfield] at hversion
          refine ⟨members, version, rfl, hfield, hversion, ?_⟩
          split at h
          · rename_i hnone
            cases h
            exact .inl ⟨hnone, rfl⟩
          · rename_i entries hentries
            obtain ⟨puts, hputs, hslots⟩ := readSlots_eq_ok_iff.mp h
            exact .inr ⟨entries, puts, hentries, hputs, hslots⟩
          · cases h
    | _ => cases h
  · rintro ⟨members, version, rfl, hfield, hversion, hslots⟩
    have hsame : (!version.same (.int StateFile.version)) = false := by simpa using (same_version_iff version).mpr hversion
    rw [ofDocument]
    simp only [hfield, Option.getD_some, hsame, Bool.false_eq_true, if_false]
    rcases hslots with ⟨hnone, rfl⟩ | ⟨entries, puts, hentries, hputs, rfl⟩
    · rw [hnone]
    · rw [hentries]
      exact readSlots_eq_ok_iff.mpr ⟨puts, hputs, rfl⟩

/-- Bytes are decoded as slots exactly if they describe them. -/
theorem decode_eq_ok_iff {content : Bytes} {slots : Slots} : decode content = .ok slots ↔ Describes content slots := by
  constructor
  · intro h
    unfold decode at h
    split at h
    · cases h
    · rename_i cs hcs
      split at h
      · cases h
      · cases h
      · rename_i document hread
        cases hdocument : ofDocument document with
        | error cause =>
          rw [hdocument] at h
          cases h
        | ok found =>
          rw [hdocument] at h
          cases h
          obtain ⟨members, version, rfl, hrest⟩ := ofDocument_eq_ok_iff.mp hdocument
          exact ⟨cs, members, version, Utf8.decode_eq_ok_iff.mp hcs, hread, hrest⟩
  · rintro ⟨cs, members, version, rfl, hread, hrest⟩
    have hdocument : ofDocument (.dict members) = .ok slots := ofDocument_eq_ok_iff.mpr ⟨members, version, rfl, hrest⟩
    rw [decode, Utf8.decode_encode]
    simp only [hread, hdocument]
    rfl

/-- Text that can be read but is no state file is unusable, whatever the cause. -/
theorem decode_unusable {cs : List Char} (hread : (Json.read maxNesting (unifyLines cs)).isOk = true)
    (hnot : (decode (Utf8.encode cs)).toOption = none) : ∃ cause, decode (Utf8.encode cs) = .error (.unusable cause) := by
  unfold decode at hnot ⊢
  rw [Utf8.decode_encode] at hnot ⊢
  cases hdocument : Json.read maxNesting (unifyLines cs) with
  | error e =>
    rw [hdocument] at hread
    cases hread
  | ok document =>
    simp only [hdocument] at hnot ⊢
    cases hslots : ofDocument document with
    | error cause => exact ⟨cause, rfl⟩
    | ok slots =>
      rw [hslots] at hnot
      cases hnot

end StateFile

/-- A step that passes its checks on the key and the value. -/
def BackendStep.Admissible (setting : Setting) : BackendStep → Prop
  | .get key => ∃ k, (admission key setting).1 = .ok k
  | .set key value => (∃ k, (admission key setting).1 = .ok k) ∧ ∃ w, checkValue value = .ok w
  | .reopen => False

namespace Site

variable {s : Site} {path : Path} {content : Bytes}

/-- A file that is there is loaded as what its content is decoded as. -/
theorem load_of_read {t : FileTree} (h : t.read path = .ok content) {slots : Slots}
    (hdecode : StateFile.decode content = .ok slots) : t.load path = .ok slots :=
  FileTree.load_eq_ok_iff.mpr (.inr ⟨content, h, hdecode⟩)

/-- An access to a file that is unusable fails for that cause, and only the configuration may have been read. -/
theorem act_of_unusable (fresh : s.backend = .newFile path) (there : s.around.files.read path = .ok content)
    {cause : StateFileCause} (hdecode : StateFile.decode content = .error (.unusable cause)) {step : BackendStep}
    (hstep : step.Admissible s.around.setting) :
    ∃ setting, step.act.perform s = (.error (.store (.stateFile ⟨path.text, cause⟩)), s.withSetting setting) := by
  have hload : s.around.files.served path none = .error (.store (.stateFile ⟨path.text, cause⟩)) := by
    simp only [FileTree.served, FileTree.load, FileTree.has_of_read there, there, hdecode]
  cases step with
  | get key =>
    obtain ⟨k, hk⟩ := hstep
    exact ⟨_, getSlot_unserved fresh hk hload⟩
  | set key value =>
    obtain ⟨⟨k, hk⟩, w, hw⟩ := hstep
    refine ⟨(admission key s.around.setting).2, ?_⟩
    rw [BackendStep.act, Act.perform_bind, setSlot_unserved fresh hk hw hload]
  | reopen => exact hstep.elim

/-- A state file is taken exactly if it is one, and a bad one is never destroyed. On a backend that has not loaded yet, whatever
the file at its path holds, as long as it is not nested beyond what is read: loading gives slots exactly if the content describes
them, these have keys that are not empty and values of at most a word, and they are found from then on. Otherwise every get and
set that passes its checks is a fault of the state file, the files stay as they were, and the backend still has not loaded, so
that it serves whatever document is at its path later. -/
theorem state_file_taken_exactly (s : Site) (path : Path) (content : Bytes) (fresh : s.backend = .newFile path)
    (there : s.around.files.read path = .ok content) (shallow : StateFile.decode content ≠ .error .tooDeep) :
    (∀ slots, (∃ s', (loadSlots path none).perform s = (.ok slots, s')) ↔ StateFile.Describes content slots) ∧
    (∀ slots, StateFile.Describes content slots → (∀ e ∈ slots, e.1 ≠ [] ∧ e.2.length ≤ 32) ∧
      ∀ key k, (admission key s.around.setting).1 = .ok k →
        ∃ s', (getSlot key).perform s = (.ok (slots.found k), s') ∧ s'.backend = .file path (some slots)) ∧
    ((¬ ∃ slots, StateFile.Describes content slots) →
      ∃ cause, ∀ step : BackendStep, step.Admissible s.around.setting →
        ∃ s', step.act.perform s = (.error (.store (.stateFile ⟨path.text, cause⟩)), s') ∧
          s'.around.files = s.around.files ∧ s'.backend = .newFile path ∧
          ∀ (later : Surroundings) (replaced : Bytes) (slots : Slots), later.files.read path = .ok replaced →
            StateFile.Describes replaced slots → ∀ key k, (admission key later.setting).1 = .ok k →
              ∃ s'', (getSlot key).perform ⟨later, s'.backend⟩ = (.ok (slots.found k), s'')) := by
  refine ⟨fun slots => ⟨?_, fun h => ?_⟩, fun slots h => ⟨?_, fun key k hk => ?_⟩, fun hnot => ?_⟩
  · rintro ⟨s', hperform⟩
    rw [← StateFile.decode_eq_ok_iff]
    cases hload : s.around.files.load path with
    | error f =>
      rw [loadSlots_error hload] at hperform
      nomatch hperform
    | ok loaded =>
      obtain ⟨around, hok, -⟩ := loadSlots_ok hload
      rw [hok] at hperform
      cases hperform
      rcases FileTree.load_eq_ok_iff.mp hload with ⟨habsent, -⟩ | ⟨found, hread, hdecode⟩
      · rw [FileTree.has_of_read there] at habsent
        nomatch habsent
      · cases there.symm.trans hread
        exact hdecode
  · obtain ⟨around, hperform, -⟩ := loadSlots_ok (load_of_read there (StateFile.decode_eq_ok_iff.mpr h))
    exact ⟨_, hperform⟩
  · exact (StateFile.wellFormed_of_decode (StateFile.decode_eq_ok_iff.mpr h)).bounded
  · have hserved : s.around.files.served path none = .ok slots := load_of_read there (StateFile.decode_eq_ok_iff.mpr h)
    obtain ⟨around, hperform, -⟩ := getSlot_served fresh hk hserved
    exact ⟨_, hperform, rfl⟩
  · cases hdecode : StateFile.decode content with
    | ok slots => exact absurd ⟨slots, StateFile.decode_eq_ok_iff.mp hdecode⟩ hnot
    | error refusal =>
      cases refusal with
      | tooDeep => exact absurd hdecode shallow
      | unusable cause =>
        refine ⟨cause, fun step hstep => ?_⟩
        obtain ⟨setting, hperform⟩ := act_of_unusable fresh there hdecode hstep
        refine ⟨_, hperform, rfl, fresh, fun later replaced slots hread hdescribes key k hk => ?_⟩
        have hserved : later.files.served path none = .ok slots := load_of_read hread (StateFile.decode_eq_ok_iff.mpr hdescribes)
        obtain ⟨around, hget, -⟩ := getSlot_served (s := ⟨later, (s.withSetting setting).backend⟩) fresh hk hserved
        exact ⟨_, hget⟩

/-- The law at a file with a key of no bytes: to set fails and leaves the file, and the same backend then serves a document that is
put in its place, with a double for its version and a blank in its hex. -/
theorem state_file_taken_exactly_once_mended :
    let path : Path := ⟨.here, ["slots.json"]⟩
    let bad : Bytes := Utf8.encode "\x7b\"version\": 1, \"slots\": \x7b\"0x\": \"0x01\"\x7d\x7d".toList
    let good : Bytes := Utf8.encode "\x7b\"slots\": \x7b\"0x0A\": \"0x 01\"\x7d, \"version\": 1.0\x7d".toList
    let around : Surroundings := {
      setting := ⟨[], some ⟨none, "WARNING", none, 1024, 64⟩⟩
      files := ⟨[(["slots.json"], .file bad)]⟩
      medium := .sound "/work" "temporal"
      journal := .fresh
      stamp := ⟨"2025-01-01T00:00:00", 1, 1, 4096⟩ }
    let later : Surroundings := { around with files := ⟨[(["slots.json"], .file good)]⟩ }
    let s : Site := ⟨around, .newFile path⟩
    s.around.files.read path = .ok bad ∧ StateFile.decode bad ≠ .error .tooDeep ∧
      (¬ ∃ slots, StateFile.Describes bad slots) ∧ StateFile.Describes good [([10], [1])] ∧
      ∃ cause s', (BackendStep.set (.bytes [10]) (.bytes [2])).act.perform s = (.error (.store (.stateFile ⟨path.text, cause⟩)), s') ∧
        s'.around.files = s.around.files ∧
        ∃ s'', (getSlot (.bytes [10])).perform ⟨later, s'.backend⟩ = (.ok (.bytes [1]), s'') := by
  intro path bad good around later s
  obtain ⟨empty, hbad⟩ : ∃ cause, StateFile.decode bad = .error (.unusable cause) :=
    StateFile.decode_unusable (by decide +kernel) (by decide +kernel)
  have hgood : StateFile.Describes good [([10], [1])] :=
    StateFile.decode_eq_ok_iff.mp (toOption_eq_some.mp (by decide +kernel))
  have hshallow : StateFile.decode bad ≠ .error .tooDeep := by
    rw [hbad]
    rintro ⟨⟩
  have hnot : ¬ ∃ slots, StateFile.Describes bad slots := by
    rintro ⟨slots, h⟩
    have hok := StateFile.decode_eq_ok_iff.mpr h
    rw [hbad] at hok
    cases hok
  obtain ⟨cause, hfails⟩ := (state_file_taken_exactly s path bad rfl rfl hshallow).2.2 hnot
  obtain ⟨s', hset, hfiles, -, hserves⟩ := hfails (.set (.bytes [10]) (.bytes [2])) ⟨⟨[10], rfl⟩, [2], rfl⟩
  obtain ⟨s'', hget⟩ := hserves later good _ rfl hgood (.bytes [10]) [10] rfl
  exact ⟨rfl, hshallow, hnot, hgood, cause, s', hset, hfiles, s'', hget⟩

end Site

end WordSlot
