import WordSlot.Proofs.Backend
import WordSlot.Proofs.Records
import WordSlot.Proofs.StateFile

/-!
# Loading a state file

What loading gives is told by the files alone: nothing where there is no file, else the slots that the file holds, or why it
cannot be used. A backend that has loaded never looks at its file again. Whatever a backend fails with is never about a value
that a caller handed in, and whatever it finds is at most a word.
-/

namespace WordSlot

open Outcome

/-- A fault about a value that was handed in. -/
def Fault.aboutValue : Fault → Bool
  | .store f => f.family.aboutValue
  | _ => false

namespace FileTree

/-- What a path gives when it is loaded. -/
def load (t : FileTree) (path : Path) : Except Fault Slots :=
  match t.has path with
  | .error c => .error (.file ⟨c, path.text, none⟩)
  | .ok false => .ok []
  | .ok true =>
    match t.read path with
    | .error c => .error (.store (.stateFile ⟨path.text, .unreadable (FileFault.text ⟨c, path.text, none⟩)⟩))
    | .ok content =>
      match StateFile.decode content with
      | .error .tooDeep => .error (.misuse .tooDeep)
      | .error (.unusable cause) => .error (.store (.stateFile ⟨path.text, cause⟩))
      | .ok slots => .ok slots

variable {t : FileTree} {path : Path} {slots : Slots}

/-- A file that can be read is there. -/
theorem has_of_read {content : Bytes} (h : t.read path = .ok content) : t.has path = .ok true := by
  unfold read at h
  unfold has
  split at h
  · rename_i hfind
    rw [hfind]
  · cases h
  · cases h

/-- Loading gives slots exactly from a file that holds them, or none where there is no file. -/
theorem load_eq_ok_iff : t.load path = .ok slots ↔
    t.has path = .ok false ∧ slots = [] ∨ ∃ content, t.read path = .ok content ∧ StateFile.decode content = .ok slots := by
  constructor
  · intro h
    unfold load at h
    split at h
    · cases h
    · rename_i habsent
      cases h
      exact .inl ⟨habsent, rfl⟩
    · split at h
      · cases h
      · rename_i content hread
        split at h
        · cases h
        · cases h
        · rename_i found hdecode
          cases h
          exact .inr ⟨content, hread, hdecode⟩
  · rintro (⟨habsent, rfl⟩ | ⟨content, hread, hdecode⟩)
    · simp only [load, habsent]
    · simp only [load, has_of_read hread, hread, hdecode]

/-- Slots that are loaded are well formed. -/
theorem load_wellFormed (h : t.load path = .ok slots) : slots.WellFormed := by
  rcases load_eq_ok_iff.mp h with ⟨-, rfl⟩ | ⟨content, -, hdecode⟩
  · exact Slots.wellFormed_nil
  · exact StateFile.wellFormed_of_decode hdecode

/-- A load that fails rejects no value. -/
theorem load_fails (t : FileTree) (path : Path) : Fails (t.load path) (·.aboutValue = false) := by
  intro f h
  unfold load at h
  split at h
  · cases h
    rfl
  · cases h
  · split at h
    · cases h
      rfl
    · split at h
      · cases h
        rfl
      · cases h
        rfl
      · cases h

/-- What loading gives depends on what is found at the path alone. -/
theorem load_of_find {t' : FileTree} (h : t'.find path = t.find path) : t'.load path = t.load path := by
  unfold load has read
  rw [h]

/-- What a file backend answers from: what it remembers, else what its path gives. -/
def served (t : FileTree) (path : Path) : Option Slots → Except Fault Slots
  | some slots => .ok slots
  | none => t.load path

/-- Slots that are served are well formed if those held are. -/
theorem served_wellFormed {held : Option Slots} (hheld : ∀ g, held = some g → g.WellFormed)
    (h : t.served path held = .ok slots) : slots.WellFormed := by
  cases held with
  | none => exact load_wellFormed h
  | some g =>
    cases h
    exact hheld slots rfl

end FileTree

namespace Surroundings

/-- The lines that files take when a backend gets the slots that it answers from: none if it remembers them. -/
def loadLines (s : Surroundings) (path : Path) (held : Option Slots) (slots : Slots) : List (Path × Bytes) :=
  match held with
  | some _ => []
  | none => s.linesOf LogLevel.debug (.loaded s.files path slots)

/-- A handler writes to a location exactly if its path leads there. -/
theorem writesTo_iff {s : Surroundings} {l : Location} {h : Handler} :
    s.writesTo l h = true ↔ ∃ p, h.sink = .file p ∧ s.files.locate p = .ok l := by
  unfold writesTo
  cases h.sink with
  | stream index => simp
  | file p => cases hp : s.files.locate p <;> simp [hp]

/-- Only handlers are done with, and those that write elsewhere stay. -/
theorem detached_eq (s : Surroundings) (path : Path) :
    ∃ handlers, s.detached path = { s with journal := { s.journal with handlers } } ∧
      (∀ h ∈ handlers, h ∈ s.journal.handlers) ∧
      ((∀ h ∈ s.journal.handlers, ∀ p, h.sink = .file p → p.Apart path) → handlers = s.journal.handlers) := by
  unfold detached
  cases hlocate : s.files.locate path with
  | error c => exact ⟨s.journal.handlers, rfl, fun _ hh => hh, fun _ => rfl⟩
  | ok l =>
    refine ⟨_, rfl, fun h hh => List.mem_of_mem_filter hh, fun apart => List.filter_eq_self.mpr fun h hh => ?_⟩
    rw [Bool.not_eq_true', Bool.eq_false_iff, ne_eq, writesTo_iff]
    rintro ⟨p, hsink, hp⟩
    exact apart h hh p hsink s.files l hp hlocate

/-- No file changes by that. -/
@[simp] theorem files_detached (s : Surroundings) (path : Path) : (s.detached path).files = s.files := by
  obtain ⟨handlers, hdetached, -⟩ := s.detached_eq path
  rw [hdetached]

/-- The setting stays as well. -/
@[simp] theorem setting_detached (s : Surroundings) (path : Path) : (s.detached path).setting = s.setting := by
  obtain ⟨handlers, hdetached, -⟩ := s.detached_eq path
  rw [hdetached]

/-- Where no log is written to a path, no handler is done with. -/
theorem detached_of_apart {s : Surroundings} {path : Path}
    (apart : ∀ h ∈ s.journal.handlers, ∀ p, h.sink = .file p → p.Apart path) : s.detached path = s := by
  obtain ⟨handlers, hdetached, -, hsame⟩ := s.detached_eq path
  rw [hdetached, hsame apart]

end Surroundings

namespace Site

/-- A backend that remembers slots does not look at its file. -/
theorem loadSlots_remembered (path : Path) (slots : Slots) (s : Site) :
    (loadSlots path (some slots)).perform s = (.ok slots, s) := rfl

/-- A file that cannot be loaded leaves everything as it was. -/
theorem loadSlots_error {path : Path} {s : Site} {f : Fault} (h : s.around.files.load path = .error f) :
    (loadSlots path none).perform s = (.error f, s) := by
  unfold FileTree.load at h
  unfold loadSlots refuseState
  rw [Act.perform_bind, Act.perform_get]
  split at h
  · rename_i hhas
    cases h
    simp only [hhas]
    rfl
  · cases h
  · rename_i hhas
    split at h
    · rename_i hread
      cases h
      simp only [hhas, hread]
      rfl
    · rename_i hread
      split at h
      · rename_i hdecode
        cases h
        simp only [hhas, hread, hdecode]
        rfl
      · rename_i hdecode
        cases h
        simp only [hhas, hread, hdecode]
        rfl
      · cases h

/-- What was loaded is remembered, and only the log hears of it. -/
theorem loadSlots_ok {path : Path} {s : Site} {slots : Slots} (h : s.around.files.load path = .ok slots) :
    ∃ around, (loadSlots path none).perform s = (.ok slots, ⟨around, .file path (some slots)⟩) ∧
      s.around.Logged (s.around.loadLines path none slots) around := by
  rcases FileTree.load_eq_ok_iff.mp h with ⟨habsent, rfl⟩ | ⟨content, hread, hdecode⟩
  · have hrecord : LogRecord.loaded s.around.files path [] = .entry storageLogger "DEBUG" LogLevel.debug
        "state file absent, starting empty" [] [("path", .path path)] := by rw [LogRecord.loaded, habsent]
    obtain ⟨around, hlog, hl⟩ := Surroundings.log_performs storageLogger LogLevel.debug
      (.text "state file absent, starting empty") [] [("path", .path path)] (fun _ => rfl) (by decide) rfl s.around
    refine ⟨around, ?_, ?_⟩
    · simp only [loadSlots, habsent, remember, Act.perform_bind, Act.perform_get, Act.perform_modify, perform_aroundAct, hlog,
        Act.perform_pure]
    · rw [Surroundings.loadLines, hrecord]
      exact hl
  · have hhas := FileTree.has_of_read hread
    have hrecord : LogRecord.loaded s.around.files path slots = .entry storageLogger "DEBUG" LogLevel.debug
        "state file loaded" [] [("path", .path path), ("slots", .int slots.length)] := by rw [LogRecord.loaded, hhas]
    obtain ⟨around, hlog, hl⟩ := Surroundings.log_performs storageLogger LogLevel.debug (.text "state file loaded") []
      [("path", .path path), ("slots", .int slots.length)] (fun _ => rfl) (by decide) rfl s.around
    refine ⟨around, ?_, ?_⟩
    · simp only [loadSlots, hhas, hread, hdecode, remember, Act.perform_bind, Act.perform_get, Act.perform_modify,
        perform_aroundAct, hlog, Act.perform_pure]
    · rw [Surroundings.loadLines, hrecord]
      exact hl

/-! ## Accesses to a file backend -/

/-- At a sound path slots are written out by replacing the file; no log is written to the new one. -/
theorem flush_perform {path : Path} (sound : path.flaw? = none) (slots : Slots) (s : Site) :
    (flush path slots).perform s =
      match s.around.files.replace s.around.medium path (StateFile.encode slots) with
      | (.ok (), files) => (.ok (), { s with around := ({ s.around with files } : Surroundings).detached path })
      | (.error f, files) =>
        (.error (.store (.stateFile ⟨path.text, .unwritable f.text⟩)), { s with around := { s.around with files } }) := by
  rcases hreplace : s.around.files.replace s.around.medium path (StateFile.encode slots) with ⟨f | ⟨⟩, files⟩ <;>
    simp only [flush, requireName, sound, Act.perform_bind, Act.perform_pure, Act.perform_get, hreplace, Act.perform_set,
      Act.perform_modify, refuseState, Act.perform_throw]

/-- At a flawed path nothing is written out. The directory of a sound one is made, unless the medium refuses that, before the flaw
of the name shows. -/
theorem flush_flawed {path : Path} {flaw : PathFlaw} (hflaw : path.flaw? = some flaw) (slots : Slots) (s : Site) :
    (flush path slots).perform s =
      if path.parent.flaw?.isNone then
        match s.around.files.prepareParents s.around.medium path with
        | (.ok (), files) => (.error (.ofPathFlaw flaw), { s with around := { s.around with files } })
        | (.error f, files) =>
          (.error (.store (.stateFile ⟨path.text, .unwritable f.text⟩)), { s with around := { s.around with files } })
      else (.error (.ofPathFlaw flaw), s) := by
  cases hparent : path.parent.flaw? with
  | none =>
    rcases hmake : s.around.files.prepareParents s.around.medium path with ⟨f | ⟨⟩, files⟩ <;>
      simp [flush, requireName, hflaw, hparent, Act.perform_bind, hmake, refuseState]
  | some other => simp [flush, requireName, hflaw, hparent]

/-- Writing slots out changes neither what a backend remembers nor the setting. -/
theorem flush_kept (path : Path) (slots : Slots) (s : Site) :
    ((flush path slots).perform s).2.backend = s.backend ∧
      ((flush path slots).perform s).2.around.setting = s.around.setting := by
  cases hflaw : path.flaw? with
  | none =>
    rw [flush_perform hflaw]
    rcases s.around.files.replace s.around.medium path (StateFile.encode slots) with ⟨f | ⟨⟩, files⟩
    · exact ⟨rfl, rfl⟩
    · exact ⟨rfl, Surroundings.setting_detached _ path⟩
  | some flaw =>
    rw [flush_flawed hflaw]
    split
    · rcases s.around.files.prepareParents s.around.medium path with ⟨f | ⟨⟩, files⟩ <;> exact ⟨rfl, rfl⟩
    · exact ⟨rfl, rfl⟩

/-- Slots are only ever written out at a sound path. -/
theorem sound_of_flush {path : Path} {slots : Slots} {s s' : Site} (h : (flush path slots).perform s = (.ok (), s')) :
    path.flaw? = none := by
  cases hflaw : path.flaw? with
  | none => rfl
  | some flaw =>
    rw [flush_flawed hflaw] at h
    split at h
    · rcases hmake : s.around.files.prepareParents s.around.medium path with ⟨f | ⟨⟩, files⟩ <;>
        simp [hmake] at h
    · nomatch h

section

variable {s : Site} {path : Path} {held : Option Slots} {slots : Slots} {key value : Value} {k w : Bytes}

/-- Loading gives what the backend answers from and remembers it; only the log hears of it, and nobody of what was remembered. -/
theorem loadSlots_served (hb : s.backend = .file path held) (h : s.around.files.served path held = .ok slots) :
    ∃ around, (loadSlots path held).perform s = (.ok slots, ⟨around, .file path (some slots)⟩) ∧
      s.around.Logged (s.around.loadLines path held slots) around ∧ (held.isSome = true → around = s.around) := by
  cases held with
  | none =>
    obtain ⟨around, hperform, hl⟩ := loadSlots_ok h
    exact ⟨around, hperform, hl, nofun⟩
  | some g =>
    cases h
    refine ⟨s.around, ?_, .refl _, fun _ => rfl⟩
    rw [loadSlots_remembered, ← hb]

/-- Where nothing is served a load fails and changes nothing. -/
theorem loadSlots_unserved {f : Fault} (h : s.around.files.served path held = .error f) :
    (loadSlots path held).perform s = (.error f, s) := by
  cases held with
  | none => exact loadSlots_error h
  | some g => nomatch h

/-- A key that is not admitted ends the access before the file is looked at. -/
theorem getSlot_refused (hb : s.backend = .file path held) {f : Fault} (h : (admission key s.around.setting).1 = .error f) :
    (getSlot key).perform s = (.error f, s.withSetting (admission key s.around.setting).2) := by
  unfold getSlot
  rw [Act.perform_bind, Act.perform_get]
  simp only [hb, Act.perform_bind, admitKey_perform, h]

/-- An admitted key is looked up in what the backend answers from. -/
theorem getSlot_served (hb : s.backend = .file path held) (hk : (admission key s.around.setting).1 = .ok k)
    (h : s.around.files.served path held = .ok slots) :
    ∃ around, (getSlot key).perform s = (.ok (slots.found k), ⟨around, .file path (some slots)⟩) ∧
      (s.withSetting (admission key s.around.setting).2).around.Logged (s.around.loadLines path held slots) around := by
  obtain ⟨around, hload, hl, -⟩ := loadSlots_served (s := s.withSetting (admission key s.around.setting).2) hb h
  refine ⟨around, ?_, hl⟩
  unfold getSlot
  rw [Act.perform_bind, Act.perform_get]
  simp only [hb, Act.perform_bind, admitKey_perform, hk, hload, Act.perform_pure]
  rfl

/-- Where nothing is served a read fails. -/
theorem getSlot_unserved (hb : s.backend = .file path held) (hk : (admission key s.around.setting).1 = .ok k) {f : Fault}
    (h : s.around.files.served path held = .error f) :
    (getSlot key).perform s = (.error f, s.withSetting (admission key s.around.setting).2) := by
  have hload := loadSlots_unserved (s := s.withSetting (admission key s.around.setting).2) h
  unfold getSlot
  rw [Act.perform_bind, Act.perform_get]
  simp only [hb, Act.perform_bind, admitKey_perform, hk, hload]

/-- A key that is not admitted ends the access, and so does a value that does not pass, before the file is looked at. -/
theorem setSlot_refused (hb : s.backend = .file path held) {f : Fault}
    (h : ((admission key s.around.setting).1 >>= fun k => (checkValue value).map fun w => (k, w)) = .error f) :
    (setSlot key value).perform s = (.error f, s.withSetting (admission key s.around.setting).2) := by
  unfold setSlot
  rw [Act.perform_bind, Act.perform_get]
  simp only [hb, Act.perform_bind, admitKey_perform]
  cases hk : (admission key s.around.setting).1 with
  | error f' =>
    rw [hk] at h
    cases h
    rfl
  | ok k =>
    rw [hk] at h
    cases hw : checkValue value with
    | error f' =>
      rw [hw] at h
      cases h
      rfl
    | ok w =>
      rw [hw] at h
      nomatch h

/-- Once the key is admitted and the value is checked, what the backend answers from is written out with the value put into it,
and then remembered. -/
theorem setSlot_served (hb : s.backend = .file path held) (hk : (admission key s.around.setting).1 = .ok k)
    (hw : checkValue value = .ok w) (h : s.around.files.served path held = .ok slots) :
    ∃ around, (setSlot key value).perform s =
        (flush path (slots.put k w) >>= fun _ => remember path (slots.put k w)).perform ⟨around, .file path (some slots)⟩ ∧
      (s.withSetting (admission key s.around.setting).2).around.Logged (s.around.loadLines path held slots) around ∧
      (held.isSome = true → around = (s.withSetting (admission key s.around.setting).2).around) := by
  obtain ⟨around, hload, hl, hsilent⟩ := loadSlots_served (s := s.withSetting (admission key s.around.setting).2) hb h
  refine ⟨around, ?_, hl, hsilent⟩
  unfold setSlot
  rw [Act.perform_bind, Act.perform_get]
  simp only [hb, Act.perform_bind, admitKey_perform, hk, hw, Act.perform_ofExcept, hload]

/-- Where nothing is served a write fails. -/
theorem setSlot_unserved (hb : s.backend = .file path held) (hk : (admission key s.around.setting).1 = .ok k)
    (hw : checkValue value = .ok w) {f : Fault} (h : s.around.files.served path held = .error f) :
    (setSlot key value).perform s = (.error f, s.withSetting (admission key s.around.setting).2) := by
  have hload := loadSlots_unserved (s := s.withSetting (admission key s.around.setting).2) h
  unfold setSlot
  rw [Act.perform_bind, Act.perform_get]
  simp only [hb, Act.perform_bind, admitKey_perform, hk, hw, Act.perform_ofExcept, hload]

/-- What it took to set a value: the key was admitted, the value passed, and the file was replaced by one with the value. -/
theorem setSlot_eq_ok {s' : Site} (hb : s.backend = .file path held) (h : (setSlot key value).perform s = (.ok (), s')) :
    ∃ k w slots around files, (admission key s.around.setting).1 = .ok k ∧ checkValue value = .ok w ∧
      s.around.files.served path held = .ok slots ∧
      (s.withSetting (admission key s.around.setting).2).around.Logged (s.around.loadLines path held slots) around ∧
      around.files.replace around.medium path (StateFile.encode (slots.put k w)) = (.ok (), files) ∧
      s' = ⟨({ around with files } : Surroundings).detached path, .file path (some (slots.put k w))⟩ := by
  cases hadmitted : ((admission key s.around.setting).1 >>= fun k => (checkValue value).map fun w => (k, w)) with
  | error f =>
    rw [setSlot_refused hb hadmitted] at h
    nomatch h
  | ok kw =>
    obtain ⟨k, hk, hchecked⟩ := bind_eq_ok.mp hadmitted
    obtain ⟨w, hw, -⟩ := map_eq_ok.mp hchecked
    cases hslots : s.around.files.served path held with
    | error f =>
      rw [setSlot_unserved hb hk hw hslots] at h
      nomatch h
    | ok slots =>
      obtain ⟨around, hset, hl, -⟩ := setSlot_served hb hk hw hslots
      rw [hset, Act.perform_bind] at h
      cases hflush : (flush path (slots.put k w)).perform ⟨around, .file path (some slots)⟩ with
      | mk result s₁ =>
        rw [hflush] at h
        cases result with
        | error f => nomatch h
        | ok done =>
          rw [flush_perform (sound_of_flush hflush)] at hflush
          rcases hreplace : around.files.replace around.medium path (StateFile.encode (slots.put k w)) with ⟨f | ⟨⟩, files⟩
          · rw [hreplace] at hflush
            nomatch hflush
          · rw [hreplace] at hflush
            cases hflush
            cases h
            exact ⟨k, w, slots, around, files, hk, hw, rfl, hl, hreplace, rfl⟩

end

/-! ## What backends fail with -/

/-- Refusing a key is not a rejection of a value. -/
theorem keyBytes_fails (key : Value) : Fails (keyBytes key) (·.aboutValue = false) := by
  unfold keyBytes
  split
  · exact fails_error rfl
  · split
    · exact fails_error rfl
    · exact fails_ok _

/-- Nor is refusing a key that is too long. -/
theorem checkKeyLength_fails (most : Nat) (key : Bytes) : Fails (checkKeyLength most key) (·.aboutValue = false) := by
  unfold checkKeyLength
  split
  · exact fails_error rfl
  · exact fails_ok _

/-- Nor is refusing the bytes of a slot. -/
theorem checkValue_fails (value : Value) : Fails (checkValue value) (·.aboutValue = false) := by
  unfold checkValue
  split
  · exact fails_error rfl
  · split
    · exact fails_error rfl
    · exact fails_ok _

/-- Only a home that is not known keeps a configuration from being read. -/
theorem config_fails (setting : Setting) : Fails setting.load.1 (·.aboutValue = false) := by
  have hread : Fails (Config.ofEnvironment setting.env) (·.aboutValue = false) := by
    unfold Config.ofEnvironment Environment.expand
    dsimp only
    split
    · refine Fails.bind ?_ fun _ _ => fails_ok _
      split
      · exact fails_ok _
      · exact fails_error rfl
    · exact fails_ok _
  unfold Setting.load
  split
  · exact fails_ok _
  · split
    · exact fails_ok _
    · rename_i f hf
      exact fails_error (hread f hf)

/-- Admitting a key rejects no value. -/
theorem admitKey_raises (key : Value) : (admitKey key).Raises (·.aboutValue = false) :=
  .bind (Act.raises_ofExcept (keyBytes_fails key)) fun b =>
    .bind (fun s => config_fails s.around.setting) fun c => Act.raises_ofExcept (checkKeyLength_fails c.maxKeyBytes b)

/-- Loading rejects no value. -/
theorem loadSlots_raises (path : Path) (held : Option Slots) : (loadSlots path held).Raises (·.aboutValue = false) := by
  intro s
  cases held with
  | some slots => exact fails_ok slots
  | none =>
    cases h : s.around.files.load path with
    | error f =>
      rw [loadSlots_error h]
      exact fails_error (FileTree.load_fails _ _ f h)
    | ok slots =>
      obtain ⟨around, hload, -⟩ := loadSlots_ok h
      rw [hload]
      exact fails_ok slots

/-- Asking for a file name rejects no value. -/
theorem requireName_raises (path : Path) : (requireName path).Raises (·.aboutValue = false) := by
  unfold requireName
  cases path.flaw? with
  | none => exact Act.raises_pure ()
  | some flaw =>
    have hflaw : (Fault.ofPathFlaw flaw).aboutValue = false := by cases flaw <;> rfl
    have hthrow : (throw (.ofPathFlaw flaw) : Act Site Unit).Raises (·.aboutValue = false) := Act.raises_throw hflaw
    dsimp only
    split
    · refine .bind Act.raises_get fun s => .bind (Act.raises_set _) fun _ => ?_
      split
      · exact hthrow
      · exact .bind (Act.raises_throw rfl) fun _ => hthrow
    · exact hthrow

/-- Writing the file rejects no value. -/
theorem flush_raises (path : Path) (slots : Slots) : (flush path slots).Raises (·.aboutValue = false) := by
  refine .bind (requireName_raises path) fun _ => .bind Act.raises_get fun s => .bind (Act.raises_set _) fun _ => ?_
  split
  · exact Act.raises_modify _
  · exact Act.raises_throw rfl

/-- Reading a slot rejects no value. -/
theorem getSlot_raises (key : Value) : (getSlot key).Raises (·.aboutValue = false) := by
  refine .bind Act.raises_get fun s => ?_
  split
  · exact Act.raises_pure _
  · exact .bind (admitKey_raises key) fun _ => Act.raises_pure _
  · exact .bind (admitKey_raises key) fun _ => .bind (loadSlots_raises _ _) fun _ => Act.raises_pure _

/-- Setting a slot rejects no value. -/
theorem setSlot_raises (key value : Value) : (setSlot key value).Raises (·.aboutValue = false) := by
  refine .bind Act.raises_get fun s => ?_
  split
  · exact Act.raises_modify _
  · exact .bind (admitKey_raises key) fun _ => .bind (Act.raises_ofExcept (checkValue_fails value)) fun _ => Act.raises_modify _
  · exact .bind (admitKey_raises key) fun _ => .bind (Act.raises_ofExcept (checkValue_fails value)) fun _ =>
      .bind (loadSlots_raises _ _) fun _ => .bind (flush_raises _ _) fun _ => Act.raises_modify _

end Site

end WordSlot
