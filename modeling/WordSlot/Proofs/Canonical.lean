import WordSlot.Proofs.Sharing

/-!
# One file for each mapping

What is written for slots is told by the mapping that they are, not by how it came about, since slots are sorted by their keys before
they are written. So two runs of sets that end in the same mapping leave the same bytes, and what was written is loaded as
the mapping and written again as the same bytes.
-/

namespace WordSlot

open Outcome

namespace Slots

variable {s s' : Slots}

/-- Slots with distinct keys that are one mapping are the same up to their order. -/
theorem perm_of_same (hs : (s.map (·.1)).Nodup) (hs' : (s'.map (·.1)).Nodup) (h : s.Same s') : s.Perm s' := by
  refine (List.perm_ext_iff_of_nodup (.of_map _ hs) (.of_map _ hs')).mpr fun e => ?_
  rw [← lookup_eq_some_iff_mem hs, ← lookup_eq_some_iff_mem hs']
  exact Eq.congr_left (h e.1)

/-- Slots that are one mapping are sorted alike. -/
theorem sorted_eq_of_same (hs : (s.map (·.1)).Nodup) (hs' : (s'.map (·.1)).Nodup) (h : s.Same s') : s.sorted = s'.sorted := by
  have hperm : s.sorted.Perm s'.sorted := ((sorted_perm s).trans (perm_of_same hs hs' h)).trans (sorted_perm s').symm
  refine hperm.eq_of_pairwise (fun a b ha hb hab hba => ?_) (sorted_pairwise s) (sorted_pairwise s')
  rw [before_eq_notAfter] at hab hba
  have hkey : a.1 = b.1 := markedCodes_injective (congrArg Text.codes (Text.notAfter_antisymm hab hba))
  exact List.inj_on_of_nodup_map hs ((sorted_perm s).mem_iff.mp ha) ((sorted_perm s).mem_iff.mp (hperm.mem_iff.mpr hb)) hkey

end Slots

namespace StateFile

/-- The bytes of a state file are told by the mapping. -/
theorem encode_eq_of_same {s s' : Slots} (hs : s.WellFormed) (hs' : s'.WellFormed) (h : s.Same s') : encode s = encode s' := by
  rw [encode, encode, render, render, document, document, Slots.sorted_eq_of_same hs.nodup hs'.nodup h]

end StateFile

/-! ## Runs of sets -/

namespace Site

/-- A site whose file is loaded as a mapping, which its backend answers from. If it was `written`, the file holds the very bytes of
that mapping. -/
structure InStep (path : Path) (written : Prop) (slots : Slots) (s : Site) : Prop where
  backend : ∃ held, s.backend = .file path held ∧ ∀ g, held = some g → g.WellFormed ∧ g.Same slots
  loads : ∃ loaded, s.around.files.load path = .ok loaded ∧ loaded.Same slots
  file : written → ∃ current, current.WellFormed ∧ current.Same slots ∧
    s.around.files.read path = .ok (StateFile.encode current)

variable {path : Path} {written : Prop} {slots : Slots} {s s' : Site}

theorem InStep.of_iff (h : s.InStep path written slots) {written' : Prop} (hiff : written ↔ written') :
    s.InStep path written' slots := by
  rw [← propext hiff]
  exact h

/-- A set that passed has written the mapping with its value. -/
theorem InStep.setSlot (h : s.InStep path written slots) {key value : Value}
    (hset : (setSlot key value).perform s = (.ok (), s')) :
    ∃ k w, key.toBytes? = some k ∧ value.toBytes? = some w ∧ s'.InStep path True (slots.put k w) := by
  obtain ⟨held, hb, hheld⟩ := h.backend
  obtain ⟨k, w, current, around, files, hk, hw, hserved, -, hreplace, rfl⟩ := setSlot_eq_ok hb hset
  obtain ⟨dir, hsettled⟩ := FileTree.settled_of_replace hreplace
  have hwf : current.WellFormed := FileTree.served_wellFormed (fun g hg => (hheld g hg).1) hserved
  have hsame : current.Same slots := by
    cases held with
    | none =>
      obtain ⟨loaded, hload, hsame⟩ := h.loads
      have hcurrent : loaded = current := Except.ok.inj (hload.symm.trans hserved)
      rw [← hcurrent]
      exact hsame
    | some g =>
      cases hserved
      exact (hheld current rfl).2
  have hnew : (current.put k w).WellFormed := hwf.put (of_admission_eq_ok hk).2 (checkValue_eq_ok_iff.mp hw).2
  have hload : files.load path = .ok (current.put k w).sorted :=
    FileTree.load_eq_ok_iff.mpr (.inr ⟨_, hsettled.read, StateFile.decode_encode hnew⟩)
  refine ⟨k, w, (of_admission_eq_ok hk).1, (checkValue_eq_ok_iff.mp hw).1, ⟨⟨_, rfl, ?_⟩, ?_, fun _ => ?_⟩⟩
  · rintro _ ⟨rfl⟩
    exact ⟨hnew, hsame.put k w⟩
  · rw [Surroundings.files_detached]
    exact ⟨_, hload, fun key => (hnew.same_sorted key).trans (hsame.put k w key)⟩
  · rw [Surroundings.files_detached]
    exact ⟨_, hnew, hsame.put k w, hsettled.read⟩

theorem InStep.reopen (h : s.InStep path written slots) : InStep path written slots { s with backend := s.backend.reopened } := by
  obtain ⟨held, hb, -⟩ := h.backend
  exact ⟨⟨none, by rw [hb]; rfl, nofun⟩, h.loads, h.file⟩

end Site

namespace BackendStep

/-- What a set puts under which key. -/
def put? : BackendStep → Option (Bytes × Bytes)
  | .set key value => key.toBytes?.bind fun k => value.toBytes?.map fun w => (k, w)
  | _ => none

/-- A step that sets a value. -/
def isSet : BackendStep → Bool
  | .set _ _ => true
  | _ => false

/-- The mapping that steps end in if all of them pass. -/
def endsIn (initial : Slots) (steps : List BackendStep) : Slots := initial.putAll (steps.filterMap put?)

/-- The files after steps on a backend that is opened at a path. -/
def filesAfter (around : Surroundings) (path : Path) (steps : List BackendStep) : FileTree :=
  (Act.runAll act steps ⟨around, .newFile path⟩).2.around.files

/-- Sets that all passed, at least one of them, on a path that is free or holds slots that load; in between, the backend may have
been opened anew. -/
structure SetsPassed (around : Surroundings) (path : Path) (initial : Slots) (steps : List BackendStep) : Prop where
  loads : around.files.has path = .ok false ∧ initial = [] ∨
    ∃ content, around.files.read path = .ok content ∧ StateFile.decode content = .ok initial
  sets : ∀ step ∈ steps, step.isSet = true ∨ step = .reopen
  nonempty : ∃ step ∈ steps, step.isSet = true
  passed : ∀ done ∈ (Act.runAll act steps ⟨around, .newFile path⟩).1, done.2.isOk = true

/-- A run of sets that pass writes the mapping that they end in. -/
theorem inStep_runAll {path : Path} {written : Prop} {slots : Slots} {s : Site} (h : s.InStep path written slots)
    {steps : List BackendStep} (hsets : ∀ step ∈ steps, step.isSet = true ∨ step = .reopen)
    (hpassed : ∀ done ∈ (Act.runAll act steps s).1, done.2.isOk = true) :
    (Act.runAll act steps s).2.InStep path (written ∨ ∃ step ∈ steps, step.isSet = true) (endsIn slots steps) := by
  induction steps generalizing written slots s with
  | nil => exact h.of_iff (by simp)
  | cons step steps ih =>
    rw [Act.runAll_cons] at hpassed ⊢
    rw [List.forall_mem_cons] at hpassed hsets
    obtain ⟨hok, hrest⟩ := hpassed
    cases step with
    | get key => rcases hsets.1 with h | h <;> cases h
    | set key value =>
      simp only [act, Act.perform_bind_pure] at hok hrest ⊢
      cases hset : (Site.setSlot key value).perform s with
      | mk result s₁ =>
        rw [hset] at hok hrest
        cases result with
        | error f => cases hok
        | ok done =>
          obtain ⟨k, w, hk, hw, hstep⟩ := h.setSlot hset
          have hput : endsIn slots (set key value :: steps) = endsIn (slots.put k w) steps := by
            simp [endsIn, put?, hk, hw, Slots.putAll]
          rw [hput]
          exact (ih hstep hsets.2 hrest).of_iff (by simp [isSet])
    | reopen =>
      exact (ih h.reopen hsets.2 hrest).of_iff (by simp [isSet])

variable {around : Surroundings} {path : Path} {initial : Slots} {steps : List BackendStep}

/-- Sets that passed leave the very bytes of the mapping that they end in. -/
theorem SetsPassed.read (h : SetsPassed around path initial steps) :
    ∃ current, current.WellFormed ∧ current.Same (endsIn initial steps) ∧
      (filesAfter around path steps).read path = .ok (StateFile.encode current) := by
  have hstart : Site.InStep path False initial ⟨around, .newFile path⟩ :=
    ⟨⟨none, rfl, nofun⟩, ⟨initial, FileTree.load_eq_ok_iff.mpr h.loads, fun _ => rfl⟩, nofun⟩
  exact (inStep_runAll hstart h.sets h.passed).file (.inr h.nonempty)

/-- Sets that end in the same mapping leave the same bytes. -/
theorem SetsPassed.read_eq (h : SetsPassed around path initial steps) {around' : Surroundings} {path' : Path} {initial' : Slots}
    {steps' : List BackendStep} (h' : SetsPassed around' path' initial' steps')
    (hsame : (endsIn initial steps).Same (endsIn initial' steps')) :
    ∃ content loaded, (filesAfter around path steps).read path = .ok content ∧
      (filesAfter around' path' steps').read path' = .ok content ∧ StateFile.decode content = .ok loaded ∧
      loaded.Same (endsIn initial steps) := by
  obtain ⟨current, hwf, hcurrent, hread⟩ := h.read
  obtain ⟨current', hwf', hcurrent', hread'⟩ := h'.read
  have hbytes : StateFile.encode current = StateFile.encode current' := by
    refine StateFile.encode_eq_of_same hwf hwf' fun key => ?_
    rw [hcurrent key, hsame key, hcurrent' key]
  exact ⟨_, _, hread, by rw [hread', hbytes], StateFile.decode_encode hwf,
    fun key => (hwf.same_sorted key).trans (hcurrent key)⟩

theorem endsIn_append (initial : Slots) (steps steps' : List BackendStep) :
    endsIn initial (steps ++ steps') = endsIn (endsIn initial steps) steps' := by
  rw [endsIn, List.filterMap_append, Slots.putAll_append]
  rfl

/-- Sets under distinct keys end in the same mapping in either order. -/
theorem endsIn_swap (slots : Slots) {key₁ key₂ : Value} (h : key₁.toBytes? ≠ key₂.toBytes?) (value₁ value₂ : Value) :
    (endsIn slots [set key₁ value₁, set key₂ value₂]).Same (endsIn slots [set key₂ value₂, set key₁ value₁]) := by
  intro key
  cases hput₁ : put? (set key₁ value₁) with
  | none => simp only [endsIn, List.filterMap_cons, List.filterMap_nil, hput₁]
  | some kw₁ =>
    cases hput₂ : put? (set key₂ value₂) with
    | none => simp only [endsIn, List.filterMap_cons, List.filterMap_nil, hput₁, hput₂]
    | some kw₂ =>
      obtain ⟨k₁, hk₁, hw₁⟩ := Option.bind_eq_some_iff.mp hput₁
      obtain ⟨k₂, hk₂, hw₂⟩ := Option.bind_eq_some_iff.mp hput₂
      obtain ⟨w₁, -, rfl⟩ := Option.map_eq_some_iff.mp hw₁
      obtain ⟨w₂, -, rfl⟩ := Option.map_eq_some_iff.mp hw₂
      have hne : k₁ ≠ k₂ := by
        rintro rfl
        exact h (hk₁.trans hk₂.symm)
      simp only [endsIn, List.filterMap_cons, List.filterMap_nil, hput₁, hput₂, Slots.putAll, List.foldl_cons, List.foldl_nil,
        Slots.get?_put]
      split
      · rename_i hkey
        rw [if_neg (hkey ▸ hne.symm)]
      · rfl

theorem endsIn_repeat (slots : Slots) (key value : Value) :
    (endsIn slots [set key value]).Same (endsIn slots [set key value, set key value]) := by
  intro k
  cases hput : put? (set key value) with
  | none => simp [endsIn, hput]
  | some kw =>
    simp only [endsIn, List.filterMap_cons, List.filterMap_nil, hput, Slots.putAll, List.foldl_cons, List.foldl_nil,
      Slots.get?_put]
    split <;> rfl

/-- The bytes of a state file are told by its mapping, not by its history. Sets that passed, wherever they were made and however
often the backend was opened anew in between, leave the same bytes if they end in the same mapping, and those are loaded as that
mapping; so sets under distinct keys can change places, and to repeat the last one changes nothing. What is written for a mapping
is loaded as that mapping, and written again as the same bytes; its members are in the order of their texts, as they are in the
order of their keys. -/
theorem state_file_told_by_mapping :
    (∀ (around₁ around₂ : Surroundings) (path₁ path₂ : Path) (initial₁ initial₂ : Slots) (steps₁ steps₂ : List BackendStep),
      SetsPassed around₁ path₁ initial₁ steps₁ → SetsPassed around₂ path₂ initial₂ steps₂ →
      (endsIn initial₁ steps₁).Same (endsIn initial₂ steps₂) →
      ∃ content loaded, (filesAfter around₁ path₁ steps₁).read path₁ = .ok content ∧
        (filesAfter around₂ path₂ steps₂).read path₂ = .ok content ∧ StateFile.decode content = .ok loaded ∧
        loaded.Same (endsIn initial₁ steps₁)) ∧
    (∀ (around : Surroundings) (path : Path) (initial : Slots) (earlier later : List BackendStep) (key₁ value₁ key₂ value₂ : Value),
      key₁.toBytes? ≠ key₂.toBytes? →
      SetsPassed around path initial (earlier ++ [set key₁ value₁, set key₂ value₂] ++ later) →
      SetsPassed around path initial (earlier ++ [set key₂ value₂, set key₁ value₁] ++ later) →
      ∃ content, (filesAfter around path (earlier ++ [set key₁ value₁, set key₂ value₂] ++ later)).read path = .ok content ∧
        (filesAfter around path (earlier ++ [set key₂ value₂, set key₁ value₁] ++ later)).read path = .ok content) ∧
    (∀ (around : Surroundings) (path : Path) (initial : Slots) (earlier : List BackendStep) (key value : Value),
      SetsPassed around path initial (earlier ++ [set key value]) →
      SetsPassed around path initial (earlier ++ [set key value, set key value]) →
      ∃ content, (filesAfter around path (earlier ++ [set key value])).read path = .ok content ∧
        (filesAfter around path (earlier ++ [set key value, set key value])).read path = .ok content) ∧
    ∀ slots : Slots, slots.WellFormed →
      (∃ loaded, StateFile.decode (StateFile.encode slots) = .ok loaded ∧ loaded.Same slots ∧
        StateFile.encode loaded = StateFile.encode slots) ∧
      (StateFile.document slots).sortKeys = StateFile.document slots := by
  refine ⟨fun _ _ _ _ _ _ _ _ h₁ h₂ hsame => h₁.read_eq h₂ hsame,
    fun around path initial earlier later key₁ value₁ key₂ value₂ hne h₁ h₂ => ?_,
    fun around path initial earlier key value h₁ h₂ => ?_, fun slots hwf => ⟨?_, StateFile.sortKeys_document slots⟩⟩
  · have hsame : (endsIn initial (earlier ++ [set key₁ value₁, set key₂ value₂] ++ later)).Same
        (endsIn initial (earlier ++ [set key₂ value₂, set key₁ value₁] ++ later)) := by
      simp only [endsIn_append]
      exact (endsIn_swap _ hne value₁ value₂).putAll _
    obtain ⟨content, -, hread₁, hread₂, -⟩ := h₁.read_eq h₂ hsame
    exact ⟨content, hread₁, hread₂⟩
  · have hsame : (endsIn initial (earlier ++ [set key value])).Same
        (endsIn initial (earlier ++ [set key value, set key value])) := by
      simp only [endsIn_append]
      exact endsIn_repeat _ key value
    obtain ⟨content, -, hread₁, hread₂, -⟩ := h₁.read_eq h₂ hsame
    exact ⟨content, hread₁, hread₂⟩
  · exact ⟨_, StateFile.decode_encode hwf, hwf.same_sorted, StateFile.encode_eq_of_same hwf.sorted hwf hwf.same_sorted⟩

/-- The law at two histories: a new file that takes two keys of which one begins the other, and a file, spelled in another way,
that holds one of them and takes the other twice, with an opening in between. -/
theorem state_file_told_by_mapping_two_histories :
    let fresh : Path := ⟨.here, ["new", "slots.json"]⟩
    let old : Path := ⟨.here, ["old.json"]⟩
    let content : Bytes := Utf8.encode "\x7b\"slots\": \x7b\"0x0A\": \"0x FF\"\x7d, \"version\": true\x7d".toList
    let around : Surroundings := {
      setting := ⟨[], some ⟨none, "WARNING", none, 1024, 64⟩⟩
      files := ⟨[(["old.json"], .file content)]⟩
      medium := .sound "/work" "temporal"
      journal := .fresh
      stamp := ⟨"2025-01-01T00:00:00", 1, 1, 4096⟩ }
    let steps₁ := [set (.bytes [10, 0]) (.bytes [1]), set (.buffer [10]) (.bytes [255])]
    let steps₂ := [set (.bytes [10, 0]) (.bytes []), reopen, set (.bytes [10, 0]) (.bytes [1])]
    SetsPassed around fresh [] steps₁ ∧ SetsPassed around old [([10], [255])] steps₂ ∧
      (endsIn [] steps₁).Same (endsIn [([10], [255])] steps₂) ∧
      ∃ content, (filesAfter around fresh steps₁).read fresh = .ok content ∧
        (filesAfter around old steps₂).read old = .ok content := by
  intro fresh old content around steps₁ steps₂
  have hdecode : StateFile.decode content = .ok [([10], [255])] := toOption_eq_some.mp (by decide +kernel)
  have hmirrors : Site.Mirrors old True [([10], [255])] ⟨around, .newFile old⟩ :=
    ⟨by decide, ⟨none, rfl, nofun⟩, .inl ⟨trivial, content, _, rfl, hdecode, fun _ => rfl⟩, by rfl, nofun⟩
  -- What is written is not read back by evaluation: the replies are those of a backend in memory.
  have hreplies := (alike_runAll ⟨⟨_, rfl, hmirrors⟩, rfl⟩ steps₂ (m := ⟨around, .memory [([10], [255])]⟩)).1
  have h₁ : SetsPassed around fresh [] steps₁ :=
    ⟨.inl ⟨rfl, rfl⟩, by simp [steps₁, isSet], by simp [steps₁, isSet], by decide +kernel⟩
  have h₂ : SetsPassed around old [([10], [255])] steps₂ :=
    ⟨.inr ⟨content, rfl, hdecode⟩, by simp [steps₂, isSet], by simp [steps₂, isSet], by rw [hreplies]; decide +kernel⟩
  have hsame : (endsIn [] steps₁).Same (endsIn [([10], [255])] steps₂) := by
    refine Slots.same_of_perm ?_ ?_
    · change [(([10, 0] : Bytes), ([1] : Bytes)), ([10], [255])].Perm [([10], [255]), ([10, 0], [1])]
      exact .swap _ _ _
    · decide
  obtain ⟨content, -, hread₁, hread₂, -⟩ := state_file_told_by_mapping.1 _ _ _ _ _ _ _ _ h₁ h₂ hsame
  exact ⟨h₁, h₂, hsame, content, hread₁, hread₂⟩

end BackendStep

end WordSlot
