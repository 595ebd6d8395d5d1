import WordSlot.Proofs.Directories
import WordSlot.Proofs.Reach

/-!
# A write that fails

Slots are written out by making the directories above the path, then a temporary file, and moving that over the path. Whichever
step fails, all that is left of the attempt is directories: every file is as it was, the temporary file is gone, and the backend
remembers the slots from before. So later accesses go on as if nothing had been tried, and the next write that succeeds writes
the old slots with its own value alone.

Two things can be told afterwards. A line that the journal adds while the file is loaded may go to the state file itself; and a
path that goes up out of a missing directory leads somewhere once that directory is made.
-/

namespace WordSlot

open Outcome

/-! ## Accesses after a write that failed -/

namespace Site

variable {s s' : Site} {path : Path} {held : Option Slots} {slots : Slots} {key value : Value}

/-- A file step that fails fails the write, with the files as the step left them. -/
theorem flush_unwritable {f : FileFault} {files : FileTree}
    (h : s.around.files.writeOut s.around.medium path (StateFile.encode slots) = (.error f, files)) :
    (flush path slots).perform s =
      (.error (.store (.stateFile ⟨path.text, .unwritable f.text⟩)), { s with around := { s.around with files } }) := by
  unfold FileTree.writeOut at h
  split at h
  · rename_i sound
    rw [flush_perform sound, h]
  · rename_i flaw hflaw hparent
    rw [flush_flawed hflaw, hparent, h]
    rfl
  · cases h

/-- A get gives what is found under an admitted key. -/
theorem getSlot_gives (hb : s.backend = .file path held) (h : s.around.files.served path held = .ok slots) (key : Value) :
    ((getSlot key).perform s).1 = (admission key s.around.setting).1.map slots.found := by
  cases hk : (admission key s.around.setting).1 with
  | error f =>
    rw [getSlot_refused hb hk]
    rfl
  | ok k =>
    obtain ⟨around, hperform, -⟩ := getSlot_served hb hk h
    rw [hperform]
    rfl

/-- A get from what is remembered changes the setting at most. -/
theorem getSlot_remembered (hb : s.backend = .file path (some slots)) (key : Value) :
    ((getSlot key).perform s).2 = s.withSetting (admission key s.around.setting).2 := by
  unfold getSlot
  rw [Act.perform_bind, Act.perform_get]
  simp only [hb, Act.perform_bind, admitKey_perform]
  cases (admission key s.around.setting).1 with
  | error f => rfl
  | ok k => rfl

/-- A set that fails changes nothing that is remembered. -/
theorem setSlot_failed (hb : s.backend = .file path (some slots)) {f : Fault} (h : (setSlot key value).perform s = (.error f, s')) :
    s'.backend = .file path (some slots) ∧ s'.around.setting = (admission key s.around.setting).2 := by
  cases hadmitted : ((admission key s.around.setting).1 >>= fun k => (checkValue value).map fun w => (k, w)) with
  | error f' =>
    rw [setSlot_refused hb hadmitted] at h
    cases h
    exact ⟨hb, rfl⟩
  | ok kw =>
    obtain ⟨k, hk, hchecked⟩ := bind_eq_ok.mp hadmitted
    obtain ⟨w, hw, -⟩ := map_eq_ok.mp hchecked
    obtain ⟨around, hset, hl, -⟩ := setSlot_served hb hk hw rfl
    have hkept := flush_kept path (slots.put k w) ⟨around, .file path (some slots)⟩
    rw [hset, Act.perform_bind] at h
    rcases hflush : (flush path (slots.put k w)).perform ⟨around, .file path (some slots)⟩ with ⟨f' | done, s₁⟩
    · rw [hflush] at h hkept
      cases h
      exact ⟨hkept.1, hkept.2.trans hl.setting⟩
    · rw [hflush] at h
      nomatch h

end Site

namespace BackendStep

variable {s : Site} {path : Path} {slots : Slots}

/-- As long as nothing is set and the backend is not opened anew, it remembers the same slots and every get finds in them. -/
theorem runAll_unset (hb : s.backend = .file path (some slots)) {steps : List BackendStep} (hopen : ∀ step ∈ steps, step ≠ .reopen)
    (hunset : ∀ step ∈ (Act.runAll act steps s).1, ¬ IsSet step) :
    (Act.runAll act steps s).2.backend = .file path (some slots) ∧
      ∀ key reply, (.get key, reply) ∈ (Act.runAll act steps s).1 → reply = (admission key s.around.setting).1.map slots.found := by
  induction steps generalizing s with
  | nil => exact ⟨hb, nofun⟩
  | cons step steps ih =>
    obtain ⟨hstep, hsteps⟩ := List.forall_mem_cons.mp hopen
    rw [Act.runAll_cons] at hunset ⊢
    obtain ⟨hfirst, hrest⟩ := List.forall_mem_cons.mp hunset
    have hkept : (step.act.perform s).2.backend = .file path (some slots) ∧
        ∃ key, (step.act.perform s).2.around.setting = (admission key s.around.setting).2 := by
      cases step with
      | get key =>
        have hleft : ((get key).act.perform s).2 = _ := Site.getSlot_remembered hb key
        rw [hleft]
        exact ⟨hb, key, rfl⟩
      | set key value =>
        simp only [act, Act.perform_bind_pure] at hfirst ⊢
        rcases hset : (Site.setSlot key value).perform s with ⟨f | done, s₁⟩
        · obtain ⟨hbackend, hsetting⟩ := Site.setSlot_failed hb hset
          exact ⟨hbackend, key, hsetting⟩
        · rw [hset] at hfirst
          exact absurd ⟨key, value, _, rfl⟩ hfirst
      | reopen => exact absurd rfl hstep
    obtain ⟨hbackend, asked, hsetting⟩ := hkept
    obtain ⟨hend, hgets⟩ := ih hbackend hsteps hrest
    refine ⟨hend, fun key reply hmem => ?_⟩
    rcases List.mem_cons.mp hmem with hhead | htail
    · obtain ⟨rfl, rfl⟩ := Prod.mk.inj hhead
      exact Site.getSlot_gives hb rfl key
    · rw [hgets key reply htail, hsetting, admission_admission]

end BackendStep

namespace Site

/-- A site whose backend has written slots out with one more value: that is what it remembers, and the file holds just the bytes
that stand for it. -/
def HasWritten (path : Path) (slots : Slots) (key value : Value) (s : Site) : Prop :=
  ∃ k w, key.toBytes? = some k ∧ value.toBytes? = some w ∧ s.backend = .file path (some (slots.put k w)) ∧
    s.around.files.read path = .ok (StateFile.encode (slots.put k w)) ∧
    ∃ written, StateFile.decode (StateFile.encode (slots.put k w)) = .ok written ∧ written.Same (slots.put k w)

/-- What is left of a site when a write to the file of its backend has failed; the backend answered from `slots`, which it held
already or loaded for the write. -/
structure Unharmed (path : Path) (held : Option Slots) (slots : Slots) (s s' : Site) : Prop where
  /-- Once the file was loaded, for which the log took its lines, directories of the path's parent may have been made, and nothing
  else came to be, went or changed, so there is no temporary file. -/
  files : FileTree.DirectoriesMade path.parent (s.around.files.appendAll (s.around.loadLines path held slots)) s'.around.files
  /-- What a log of JSON lines took says that the file was loaded, with the number of its slots, or that there is none. -/
  told : held = none → slots.length < 2 ^ 53 → s.around.TellsFiles LogLevel.debug (.loaded s.around.files path slots)
    (LogRecord.loadedFields s.around.files path slots s.around.stamp)
  /-- Entries stand in directories as before. -/
  rooted : s.around.files.Rooted → s'.around.files.Rooted
  /-- What the path led to is unchanged, unless it was loaded for the write and the journal goes to the same place. -/
  present : (held.isSome = true ∨
      ∀ h ∈ s.around.journal.handlers, ∀ q, h.sink = .file q → s.around.files.locate q ≠ s.around.files.locate path) →
    ∀ e, s.around.files.find path = .ok e → s'.around.files.find path = .ok e
  /-- A path that led to nothing leads to nothing, unless it goes up out of a directory that was missing. -/
  absent : s.around.files.Rooted → s.around.files.LeavesDirectories path →
    (∀ e, s.around.files.find path ≠ .ok e) → ∀ e, s'.around.files.find path ≠ .ok e
  /-- Whatever is done with the backend next, as long as nothing is set every get gives what it gave before the write; and what is
  set then, in whatever surroundings, is written out with the slots from before the write. -/
  onward : ∀ steps : List BackendStep, (∀ step ∈ steps, step ≠ .reopen) →
    (∀ step ∈ (Act.runAll BackendStep.act steps s').1, ¬ BackendStep.IsSet step) →
    (∀ key reply, (.get key, reply) ∈ (Act.runAll BackendStep.act steps s').1 → reply = ((getSlot key).perform s).1) ∧
    ∀ later key value s'', (setSlot key value).perform ⟨later, (Act.runAll BackendStep.act steps s').2.backend⟩ = (.ok (), s'') →
      HasWritten path slots key value s''

/-- A backend that remembers slots writes those out with the value that is set. -/
theorem setSlot_remembered {s s' : Site} {path : Path} {slots : Slots} {key value : Value}
    (hb : s.backend = .file path (some slots)) (hwf : slots.WellFormed) (h : (setSlot key value).perform s = (.ok (), s')) :
    HasWritten path slots key value s' := by
  obtain ⟨k, w, served, around, files, hk, hw, hserved, -, hreplace, rfl⟩ := setSlot_eq_ok hb h
  cases hserved
  obtain ⟨hkey, hne⟩ := of_admission_eq_ok hk
  obtain ⟨hvalue, hlen⟩ := checkValue_eq_ok_iff.mp hw
  obtain ⟨dir, hsettled⟩ := FileTree.settled_of_replace hreplace
  have hput : (slots.put k w).WellFormed := hwf.put hne hlen
  refine ⟨k, w, hkey, hvalue, rfl, ?_, _, StateFile.decode_encode hput, hput.same_sorted⟩
  rw [Surroundings.files_detached]
  exact hsettled.read

/-- A write that fails does no harm. On a file backend, as any history may have left it, that has loaded its slots or can load
them: whichever file step fails when an admissible value is set, the set is a fault of the state file, the files and the backend
are as they were but for directories that were made, and the write never shows in what is found or written later. -/
theorem failed_write_is_atomic {s : Site} {path : Path} {held : Option Slots} {slots : Slots} {key value : Value} {k w : Bytes}
    {f : FileFault} (reachable : s.backend.Reachable) (hb : s.backend = .file path held)
    (usable : s.around.files.served path held = .ok slots) (admitted : (admission key s.around.setting).1 = .ok k)
    (checked : checkValue value = .ok w) (new : FileTree.NewTemporary s.around.medium s.around.files path)
    (fails : (s.around.files.writeOut s.around.medium path (StateFile.encode (slots.put k w))).1 = .error f) :
    ∃ s', (setSlot key value).perform s = (.error (.store (.stateFile ⟨path.text, .unwritable f.text⟩)), s') ∧
      Unharmed path held slots s s' := by
  obtain ⟨around, hset, hl, hsilent⟩ := setSlot_served hb admitted checked usable
  have hlines : around.files = s.around.files.appendAll (s.around.loadLines path held slots) := hl.files
  have hshape : s.around.files.SameShape around.files := by
    rw [hlines]
    exact FileTree.sameShape_appendAll _ _
  have hmedium : around.medium = s.around.medium := hl.medium
  have hnew : FileTree.NewTemporary around.medium around.files path := by
    rw [hmedium]
    exact new.of_shape hshape
  rcases hwrite : around.files.writeOut around.medium path (StateFile.encode (slots.put k w)) with ⟨result, files⟩
  have hresult : result = .error f := by
    have hsame := FileTree.writeOut_shape hshape s.around.medium path (StateFile.encode (slots.put k w))
    rw [fails, ← hmedium, hwrite] at hsame
    exact hsame.symm
  subst hresult
  have hmade := FileTree.writeOut_error_made hnew hwrite
  have hbackend : ({ around := { around with files }, backend := .file path (some slots) } : Site).backend =
      .file path (some slots) := rfl
  refine ⟨⟨{ around with files }, .file path (some slots)⟩, ?_, ?_⟩
  · rw [hset, Act.perform_bind, flush_unwritable (s := ⟨around, _⟩) hwrite]
  · constructor
    · rw [← hlines]
      exact hmade
    · intro _ hcount
      exact Surroundings.tellsFiles_of_tells (LogRecord.tells_loaded _ path hcount) s.around LogLevel.debug
    · intro hrooted
      exact FileTree.writeOut_error_rooted hnew hwrite (hrooted.of_shape hshape)
    · intro hquiet e he
      refine hmade.find ?_
      rcases hquiet with hheld | happart
      · rw [hsilent hheld]
        exact he
      · refine (hl.find_of_apart fun handler hhandler q hsink l hq hpath => ?_).trans he
        exact happart handler hhandler q hsink (hq.trans hpath.symm)
    · intro hrooted hpath habsent
      refine hmade.absent (hrooted.of_shape hshape) (hpath.of_shape hshape) fun e he => ?_
      obtain ⟨e', he'⟩ := hshape.found he
      exact habsent e' he'
    · intro steps hopen hunset
      obtain ⟨hend, hgets⟩ := BackendStep.runAll_unset hbackend hopen hunset
      constructor
      · intro key' reply hmem
        have hsetting : around.setting = (admission key s.around.setting).2 := hl.setting
        rw [hgets key' reply hmem, getSlot_gives hb usable]
        dsimp only
        rw [hsetting, admission_admission]
      · intro later key' value' s'' h
        exact setSlot_remembered (s := ⟨later, _⟩) hend (wellFormed_of_served hb reachable.wellFormed usable) h

/-- The law twice, on new backends. A file with one slot cannot be moved over: it still holds that slot, and a get finds it. And a
temporary file cannot be written in a directory that had to be made, on a path that goes up out of one that was there: the path leads
to nothing, as it did, and nothing is there but the directory that was there and the one that was made. -/
theorem failed_write_is_atomic_when_refused :
    let path : Path := ⟨.here, ["data", "slots.json"]⟩
    let content : Bytes := Utf8.encode "\x7b\"slots\": \x7b\"0x0a\": \"0x01\"\x7d, \"version\": 1\x7d".toList
    let refusing (step : FileStep) (files : FileTree) : Surroundings := {
      setting := ⟨[], some ⟨none, "WARNING", none, 1024, 64⟩⟩
      files
      medium := ⟨"/work", "temporal", fun asked => if asked = step then some .notPermitted else none⟩
      journal := .fresh
      stamp := ⟨"2025-01-01T00:00:00", 1, 1, 4096⟩ }
    let s₁ : Site := ⟨refusing .moveOver ⟨[(["data"], .directory), (["data", "slots.json"], .file content)]⟩, .newFile path⟩
    let missing : Path := ⟨.here, ["here", "..", "data", "slots.json"]⟩
    let s₂ : Site := ⟨refusing .writeTemporary ⟨[(["here"], .directory)]⟩, .newFile missing⟩
    (∃ f s', s₁.around.files.served path none = .ok [([10], [1])] ∧
      (setSlot (.bytes [11]) (.bytes [2])).perform s₁ = (.error (.store (.stateFile f)), s') ∧
      s'.around.files.find path = .ok (.file content) ∧ ((getSlot (.bytes [10])).perform s').1 = .ok (.bytes [1])) ∧
    ∃ f s', s₂.around.files.served missing none = .ok [] ∧
      (setSlot (.bytes [11]) (.bytes [2])).perform s₂ = (.error (.store (.stateFile f)), s') ∧
      FileTree.DirectoriesMade ⟨.here, ["here", "..", "data"]⟩ s₂.around.files s'.around.files ∧
      s'.around.files.Rooted ∧ ∀ e, s'.around.files.find missing ≠ .ok e := by
  intro path content refusing s₁ missing s₂
  have hserved₁ : s₁.around.files.served path none = .ok [([10], [1])] := toOption_eq_some.mp (by decide +kernel)
  have hserved₂ : s₂.around.files.served missing none = .ok [] := rfl
  have hnew₁ : FileTree.NewTemporary s₁.around.medium s₁.around.files path := by
    intro dir hdir
    cases hdir
    decide +kernel
  have hnew₂ : FileTree.NewTemporary s₂.around.medium s₂.around.files missing := by
    intro dir hdir
    cases hdir
    decide +kernel
  have hkey₁ : (admission (.bytes [11]) s₁.around.setting).1 = .ok [11] := rfl
  have hkey₂ : (admission (.bytes [11]) s₂.around.setting).1 = .ok [11] := rfl
  have hvalue : checkValue (.bytes [2]) = .ok [2] := rfl
  obtain ⟨s₁', hset₁, h₁⟩ := failed_write_is_atomic (s := s₁) (.file path) rfl hserved₁ hkey₁ hvalue hnew₁ rfl
  obtain ⟨s₂', hset₂, h₂⟩ := failed_write_is_atomic (s := s₂) (.file missing) rfl hserved₂ hkey₂ hvalue hnew₂ rfl
  have hrooted : s₂.around.files.Rooted := by
    refine FileTree.rooted_of_entries fun e he => ?_
    obtain rfl := List.mem_singleton.mp he
    rfl
  have hleaves : s₂.around.files.LeavesDirectories missing := by decide +kernel
  have hget : ((getSlot (.bytes [10])).perform s₁').1 = ((getSlot (.bytes [10])).perform s₁).1 := by
    refine (h₁.onward [.get (.bytes [10])] ?_ ?_).1 _ _ (List.mem_singleton.mpr rfl)
    · simp
    · rintro step hstep ⟨key, value, reply, rfl⟩
      nomatch List.mem_singleton.mp hstep
  refine ⟨⟨_, s₁', hserved₁, hset₁, h₁.present (.inr nofun) _ rfl, ?_⟩, _, s₂', hserved₂, hset₂, h₂.files, h₂.rooted hrooted,
    h₂.absent hrooted hleaves nofun⟩
  rw [hget, getSlot_gives rfl hserved₁]
  rfl

/-- What the law leaves open does happen. A path that goes up out of a missing directory leads to a directory once that is made;
and a log that is written to the state file takes a line when the file is loaded. -/
theorem failed_write_can_be_told :
    let setting : Setting := ⟨[], some ⟨none, "WARNING", none, 1024, 64⟩⟩
    let up : Path := ⟨.here, ["x", "..", "d"]⟩
    let s₁ : Site :=
      ⟨⟨setting, ⟨[(["d"], .directory)]⟩, .sound "/work" "temporal", .fresh, ⟨"2025-01-01T00:00:00", 1, 1, 4096⟩⟩, .newFile up⟩
    let path : Path := ⟨.here, ["slots.json"]⟩
    let content : Bytes := Utf8.encode "\x7b\"slots\": \x7b\"0x0a\": \"0x01\"\x7d, \"version\": 1\x7d".toList
    let start : Surroundings := ⟨setting, ⟨[(["slots.json"], .file content)]⟩,
      ⟨"/work", "temporal", fun step => if step = .moveOver then some .notPermitted else none⟩, .fresh, ⟨"2025-01-01T00:00:00", 1, 1, 4096⟩⟩
    let s₂ : Site := ⟨((Surroundings.configureLog none (.text "DEBUG") false (.text "slots.json")).perform start).2, .newFile path⟩
    let set := setSlot (.bytes [11]) (.bytes [2])
    ((set.perform s₁).1.toOption = none ∧ (s₁.around.files.find up).toOption = none ∧
      ((set.perform s₁).2.around.files.find up).toOption = some .directory) ∧
    (set.perform s₂).1.toOption = none ∧ (s₂.around.files.read path).toOption = some content ∧
      ((set.perform s₂).2.around.files.read path).toOption ≠ some content := by
  intro setting up s₁ path content start s₂ set
  exact ⟨by decide +kernel, by decide +kernel⟩

end Site

end WordSlot
