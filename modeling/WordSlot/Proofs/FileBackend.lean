import WordSlot.Proofs.Loading

/-!
# A file backend is a mapping that outlives it

`Carries` says that the file at a path holds a mapping, or that there is no file and the mapping is empty, and that the file can
be written and no log is written to it. A backend there answers from what it remembers, or from that mapping if it remembers
nothing yet. `Mirrors` says that what it remembers is the mapping in the file. Getting, setting and opening the backend anew
then keep it up with a memory backend, reply by reply.
-/

namespace WordSlot

open Outcome

namespace Slots

variable {s s' : Slots}

/-- Equal mappings find the same. -/
theorem Same.found (h : s.Same s') : s.found = s'.found := by
  funext key
  rw [Slots.found, Slots.found, h key]

/-- Equal mappings stay so when a slot is set. -/
theorem Same.put (h : s.Same s') (k w : Bytes) : (s.put k w).Same (s'.put k w) := by
  intro key
  rw [get?_put, get?_put, h key]

/-- Equal mappings stay so when slots are set. -/
theorem Same.putAll (h : s.Same s') (puts : List (Bytes × Bytes)) :
    (s.putAll puts).Same (s'.putAll puts) := by
  induction puts generalizing s s' with
  | nil => exact h
  | cons kw puts ih => exact ih (h.put kw.1 kw.2)

end Slots

namespace FileTree

/-- The file at a path holds a mapping. -/
def HoldsSlots (t : FileTree) (path : Path) (slots : Slots) : Prop :=
  ∃ content held, t.read path = .ok content ∧ StateFile.decode content = .ok held ∧ held.Same slots

/-- What a path stands for: the mapping that its file holds if it is `present`, else no file and nothing in the mapping. -/
def Stands (t : FileTree) (path : Path) (present : Prop) (slots : Slots) : Prop :=
  present ∧ t.HoldsSlots path slots ∨ ¬ present ∧ t.has path = .ok false ∧ slots.Same []

/-- What stands at a path depends on what is found there. -/
theorem Stands.of_find {t t' : FileTree} {path : Path} {present : Prop} {slots : Slots} (h : t.Stands path present slots)
    (hfind : t'.find path = t.find path) : t'.Stands path present slots := by
  unfold Stands HoldsSlots read has at *
  rw [hfind]
  exact h

end FileTree

/-- Surroundings in which a path stands for a mapping, in a file that is there if it is `present`: the file can be written, and no
log is written to it. -/
structure Surroundings.Carries (path : Path) (present : Prop) (slots : Slots) (s : Surroundings) : Prop where
  sound : path.flaw? = none
  file : s.files.Stands path present slots
  writable : s.files.Writable s.medium path
  apart : ∀ h ∈ s.journal.handlers, ∀ p, h.sink = .file p → p.Apart path

namespace Surroundings

variable {path : Path} {present : Prop} {slots : Slots}

/-- Whether there is a file may be said in other words. -/
theorem Carries.of_iff {s : Surroundings} (h : s.Carries path present slots) {present' : Prop} (hiff : present ↔ present') :
    s.Carries path present' slots := by
  rw [← propext hiff]
  exact h

/-- Slots stand for a mapping in whatever order they are listed. -/
theorem Carries.of_same {s : Surroundings} (h : s.Carries path present slots) {slots' : Slots} (hsame : slots.Same slots') :
    s.Carries path present slots' := by
  refine ⟨h.sound, ?_, h.writable, h.apart⟩
  rcases h.file with ⟨hpresent, content, held, hread, hdecode, hheld⟩ | ⟨habsent, hhas, hempty⟩
  · exact .inl ⟨hpresent, content, held, hread, hdecode, fun key => (hheld key).trans (hsame key)⟩
  · exact .inr ⟨habsent, hhas, fun key => (hsame key).symm.trans (hempty key)⟩

/-- The setting is not part of what is carried. -/
theorem Carries.withSetting {s : Site} (h : s.around.Carries path present slots) (setting : Setting) :
    (s.withSetting setting).around.Carries path present slots :=
  ⟨h.sound, h.file, h.writable, h.apart⟩

/-- Logging keeps up the mapping: the lines go to other files. -/
theorem Carries.logged {s s' : Surroundings} {lines : List (Path × Bytes)} (h : s.Carries path present slots)
    (hl : s.Logged lines s') :
    s'.Carries path present slots := by
  obtain ⟨hshape, hfind⟩ := hl.find h.apart
  refine ⟨h.sound, h.file.of_find hfind, ?_, ?_⟩
  · rw [hl.medium]
    exact h.writable.of_shape hshape
  · rw [hl.handlers]
    exact h.apart

/-- Loading gives the mapping that the path stands for. -/
theorem Carries.load {s : Surroundings} (h : s.Carries path present slots) :
    ∃ loaded, s.files.load path = .ok loaded ∧ loaded.Same slots := by
  rcases h.file with ⟨-, content, loaded, hread, hdecode, hsame⟩ | ⟨-, habsent, hsame⟩
  · exact ⟨loaded, FileTree.load_eq_ok_iff.mpr (.inr ⟨content, hread, hdecode⟩), hsame⟩
  · exact ⟨[], FileTree.load_eq_ok_iff.mpr (.inl ⟨habsent, rfl⟩), fun key => (hsame key).symm⟩

section

variable {s : Site} {held : Option Slots}

/-- A backend answers from what it remembers, or else from the mapping that the path stands for. -/
theorem Carries.served (h : s.around.Carries path present slots) (hheld : ∀ g, held = some g → g.WellFormed) :
    ∃ current, s.around.files.served path held = .ok current ∧ current.WellFormed ∧ current.Same (held.getD slots) := by
  cases held with
  | some g => exact ⟨g, rfl, hheld g rfl, fun _ => rfl⟩
  | none =>
    obtain ⟨loaded, hload, hsame⟩ := h.load
    exact ⟨loaded, hload, FileTree.load_wellFormed hload, hsame⟩

/-- Writing slots out puts them into the file, and nothing else changes but the tree. -/
theorem Carries.flush (h : s.around.Carries path present slots) {new : Slots} (hnew : new.WellFormed) :
    ∃ files, (Site.flush path new).perform s = (.ok (), { s with around := { s.around with files } }) ∧
      ({ s.around with files } : Surroundings).Carries path True new := by
  obtain ⟨files, hreplace, hread, hwritable⟩ := h.writable.replace (StateFile.encode new)
  refine ⟨files, ?_, h.sound, .inl ⟨trivial, _, _, hread, StateFile.decode_encode hnew, hnew.same_sorted⟩, hwritable,
    h.apart⟩
  have hdetached : ({ s.around with files } : Surroundings).detached path = { s.around with files } :=
    detached_of_apart h.apart
  rw [Site.flush_perform h.sound, hreplace]
  dsimp only
  rw [hdetached]

/-- Getting from a file: a key that is admitted is looked up in what the backend remembers or loads. -/
theorem Carries.getSlot (h : s.around.Carries path present slots) (hb : s.backend = .file path held)
    (hheld : ∀ g, held = some g → g.WellFormed) (key : Value) :
    match (admission key s.around.setting).1 with
    | .error f => (Site.getSlot key).perform s = (.error f, s.withSetting (admission key s.around.setting).2)
    | .ok k => ∃ loaded around, (Site.getSlot key).perform s = (.ok (loaded.found k), ⟨around, .file path (some loaded)⟩) ∧
        loaded.WellFormed ∧ loaded.Same (held.getD slots) ∧
        (s.withSetting (admission key s.around.setting).2).around.Logged (s.around.loadLines path held loaded) around := by
  cases hk : (admission key s.around.setting).1 with
  | error f => exact Site.getSlot_refused hb hk
  | ok k =>
    obtain ⟨current, hserved, hwf, hsame⟩ := h.served hheld
    obtain ⟨around, hperform, hl⟩ := Site.getSlot_served hb hk hserved
    exact ⟨current, around, hperform, hwf, hsame, hl⟩

/-- Setting in a file: once the key is admitted and the value is checked, what the backend remembers or loads is written out
with the value put into it, and remembered. -/
theorem Carries.setSlot (h : s.around.Carries path present slots) (hb : s.backend = .file path held)
    (hheld : ∀ g, held = some g → g.WellFormed) (key value : Value) :
    match (admission key s.around.setting).1 >>= fun k => (checkValue value).map fun w => (k, w) with
    | .error f => (Site.setSlot key value).perform s = (.error f, s.withSetting (admission key s.around.setting).2)
    | .ok (k, w) => ∃ new lines around files,
        (Site.setSlot key value).perform s = (.ok (), ⟨{ around with files }, .file path (some new)⟩) ∧
        new.WellFormed ∧ new.Same ((held.getD slots).put k w) ∧
        (s.withSetting (admission key s.around.setting).2).around.Logged lines around ∧
        ({ around with files } : Surroundings).Carries path True new := by
  cases hadmitted : ((admission key s.around.setting).1 >>= fun k => (checkValue value).map fun w => (k, w)) with
  | error f => exact Site.setSlot_refused hb hadmitted
  | ok kw =>
    obtain ⟨k, hk, hchecked⟩ := bind_eq_ok.mp hadmitted
    obtain ⟨w, hw, rfl⟩ := map_eq_ok.mp hchecked
    obtain ⟨current, hserved, hwf, hsame⟩ := h.served hheld
    obtain ⟨around, hset, hl, -⟩ := Site.setSlot_served hb hk hw hserved
    have hloaded : (⟨around, .file path (some current)⟩ : Site).around.Carries path present slots :=
      (h.withSetting (admission key s.around.setting).2).logged hl
    have hnew : (current.put k w).WellFormed := hwf.put (of_admission_eq_ok hk).2 (checkValue_eq_ok_iff.mp hw).2
    obtain ⟨files, hflush, hcarries⟩ := hloaded.flush hnew
    refine ⟨current.put k w, _, around, files, ?_, hnew, hsame.put k w, hl, hcarries⟩
    rw [hset, Act.perform_bind, hflush]
    rfl

end

end Surroundings

namespace Site

/-- A site with a file backend that stands for a mapping, kept in a file that is there if it is `present`. -/
structure Mirrors (path : Path) (present : Prop) (slots : Slots) (s : Site) : Prop where
  sound : path.flaw? = none
  backend : ∃ held, s.backend = .file path held ∧ ∀ h, held = some h → h.WellFormed ∧ h.Same slots
  file : s.around.files.Stands path present slots
  writable : s.around.files.Writable s.around.medium path
  apart : ∀ h ∈ s.around.journal.handlers, ∀ p, h.sink = .file p → p.Apart path

section

variable {path : Path} {present : Prop} {slots : Slots} {s : Site}

/-- Whether there is a file may be said in other words. -/
theorem Mirrors.of_iff (h : s.Mirrors path present slots) {present' : Prop} (hiff : present ↔ present') :
    s.Mirrors path present' slots := by
  rw [← propext hiff]
  exact h

/-- A mirror is carried by its surroundings. -/
theorem Mirrors.carries (h : s.Mirrors path present slots) : s.around.Carries path present slots :=
  ⟨h.sound, h.file, h.writable, h.apart⟩

/-- A backend that holds what its surroundings carry is a mirror. -/
theorem mirrors_of_carries {around : Surroundings} {held : Slots} (h : around.Carries path present slots)
    (hwf : held.WellFormed) (hsame : held.Same slots) :
    (⟨around, .file path (some held)⟩ : Site).Mirrors path present slots := by
  refine ⟨h.sound, ⟨some held, rfl, ?_⟩, h.file, h.writable, h.apart⟩
  rintro _ ⟨rfl⟩
  exact ⟨hwf, hsame⟩

/-- What a backend remembers, or loads if it remembers nothing, is the mapping. -/
theorem same_getD {held : Option Slots} (h : ∀ g, held = some g → g.WellFormed ∧ g.Same slots) :
    (held.getD slots).Same slots := by
  cases held with
  | none => exact fun _ => rfl
  | some g => exact (h g rfl).2

/-- Getting from a file: the key is admitted and looked up in the mapping. -/
theorem Mirrors.getSlot (h : s.Mirrors path present slots) (key : Value) :
    ∃ s', (getSlot key).perform s = ((admission key s.around.setting).1.map slots.found, s') ∧
      s'.Mirrors path present slots ∧ s'.around.setting = (admission key s.around.setting).2 := by
  obtain ⟨held, hb, hheld⟩ := h.backend
  have hget := h.carries.getSlot hb (fun g hg => (hheld g hg).1) key
  cases hk : (admission key s.around.setting).1 with
  | error f =>
    rw [hk] at hget
    exact ⟨_, hget, ⟨h.sound, ⟨held, hb, hheld⟩, h.file, h.writable, h.apart⟩, rfl⟩
  | ok k =>
    rw [hk] at hget
    obtain ⟨loaded, around, hperform, hwf, hsame, hl⟩ := hget
    have hslots : loaded.Same slots := fun key => (hsame key).trans (same_getD hheld key)
    refine ⟨⟨around, .file path (some loaded)⟩, ?_, mirrors_of_carries ((h.carries.withSetting _).logged hl) hwf hslots,
      hl.setting⟩
    rw [hperform, hslots.found]
    rfl

/-- Setting in a file: the key is admitted, the value is checked, and then the mapping with the value put into it is in the
file. -/
theorem Mirrors.setSlot (h : s.Mirrors path present slots) (key value : Value) :
    match (admission key s.around.setting).1 >>= fun k => (checkValue value).map fun w => (k, w) with
    | .error f => ∃ s', (setSlot key value).perform s = (.error f, s') ∧ s'.Mirrors path present slots ∧
        s'.around.setting = (admission key s.around.setting).2
    | .ok (k, w) => ∃ s', (setSlot key value).perform s = (.ok (), s') ∧ s'.Mirrors path True (slots.put k w) ∧
        s'.around.setting = (admission key s.around.setting).2 := by
  obtain ⟨held, hb, hheld⟩ := h.backend
  have hset := h.carries.setSlot hb (fun g hg => (hheld g hg).1) key value
  cases hkw : ((admission key s.around.setting).1 >>= fun k => (checkValue value).map fun w => (k, w)) with
  | error f =>
    rw [hkw] at hset
    exact ⟨_, hset, ⟨h.sound, ⟨held, hb, hheld⟩, h.file, h.writable, h.apart⟩, rfl⟩
  | ok kw =>
    obtain ⟨k, w⟩ := kw
    rw [hkw] at hset
    obtain ⟨new, lines, around, files, hperform, hwf, hsame, hl, hcarries⟩ := hset
    have hslots : new.Same (slots.put k w) := fun key => (hsame key).trans ((same_getD hheld).put k w key)
    exact ⟨_, hperform, mirrors_of_carries (hcarries.of_same hslots) hwf hslots, hl.setting⟩

end

end Site

/-! ## Runs -/

/-- What can be done with a backend; opening it anew forgets what it remembers. -/
inductive BackendStep where
  | get (key : Value)
  | set (key value : Value)
  | reopen

/-- A backend opened anew; memory lasts as long as the backend. -/
def Backend.reopened : Backend → Backend
  | .file path _ => .newFile path
  | b => b

namespace BackendStep

/-- Carries out a step; setting and opening give nothing. -/
def act : BackendStep → Act Site Value
  | .get key => Site.getSlot key
  | .set key value => do Site.setSlot key value; pure .none
  | .reopen => do modify (fun s : Site => { s with backend := s.backend.reopened }); pure .none

/-- A step that set a value. -/
def IsSet (step : BackendStep × Except Fault Value) : Prop := ∃ key value reply, step = (.set key value, .ok reply)

/-- A site with a file backend and one with a memory backend stand for the same mapping, and would admit the same keys. -/
structure Alike (path : Path) (present : Prop) (s m : Site) : Prop where
  mirrors : ∃ slots, m.backend = .memory slots ∧ s.Mirrors path present slots
  setting : s.around.setting = m.around.setting

variable {path : Path} {present : Prop} {s m : Site}

/-- Whether there is a file may be said in other words. -/
theorem Alike.of_iff (h : Alike path present s m) {present' : Prop} (hiff : present ↔ present') :
    Alike path present' s m := by
  rw [← propext hiff]
  exact h

/-- A step that failed set nothing. -/
theorem not_isSet_of_error {step : BackendStep} {f : Fault} : ¬ IsSet (step, .error f) := by
  rintro ⟨_, _, _, ⟨⟩⟩

/-- One step gives the same on both sites and leaves them alike; after a value was set the file is there. -/
theorem alike_act (h : Alike path present s m) (step : BackendStep) :
    ∃ reply s' m', step.act.perform s = (reply, s') ∧ step.act.perform m = (reply, m') ∧
      Alike path (present ∨ IsSet (step, reply)) s' m' := by
  obtain ⟨⟨slots, hm, hs⟩, hsetting⟩ := h
  cases step with
  | get key =>
    obtain ⟨s', hperform, hs', hsetting'⟩ := hs.getSlot key
    have hmemory := Site.getSlot_memory hm key
    rw [← hsetting] at hmemory
    have hnot : ¬ IsSet (get key, (admission key s.around.setting).1.map slots.found) := by
      rintro ⟨_, _, _, ⟨⟩⟩
    exact ⟨_, s', _, hperform, hmemory, ⟨slots, hm, hs'.of_iff (or_iff_left hnot).symm⟩, hsetting'⟩
  | set key value =>
    have hset := hs.setSlot key value
    have hmemory := Site.setSlot_memory hm key value
    rw [← hsetting] at hmemory
    simp only [BackendStep.act, Act.perform_bind_pure]
    cases hadmitted : ((admission key s.around.setting).1 >>= fun k => (checkValue value).map fun w => (k, w)) with
    | error f =>
      rw [hadmitted] at hset hmemory
      obtain ⟨s', hperform, hs', hsetting'⟩ := hset
      rw [hperform, hmemory]
      exact ⟨.error f, s', _, rfl, rfl, ⟨slots, hm, hs'.of_iff (or_iff_left not_isSet_of_error).symm⟩, hsetting'⟩
    | ok kw =>
      obtain ⟨k, w⟩ := kw
      rw [hadmitted] at hset hmemory
      obtain ⟨s', hperform, hs', hsetting'⟩ := hset
      have hdone : True ↔ present ∨ IsSet (set key value, .ok .none) :=
        ⟨fun _ => .inr ⟨key, value, .none, rfl⟩, fun _ => trivial⟩
      rw [hperform, hmemory]
      exact ⟨.ok .none, s', _, rfl, rfl, ⟨slots.put k w, rfl, hs'.of_iff hdone⟩, hsetting'⟩
  | reopen =>
    obtain ⟨held, hb, -⟩ := hs.backend
    have hnot : ¬ IsSet (reopen, .ok .none) := by
      rintro ⟨_, _, _, ⟨⟩⟩
    have hfile : s.backend.reopened = .file path none := by rw [hb]; rfl
    have hs' : Site.Mirrors path present slots { s with backend := s.backend.reopened } :=
      ⟨hs.sound, ⟨none, hfile, nofun⟩, hs.file, hs.writable, hs.apart⟩
    have hmemory : m.backend.reopened = .memory slots := by rw [hm]; rfl
    exact ⟨.ok .none, _, _, rfl, rfl, ⟨slots, hmemory, hs'.of_iff (or_iff_left hnot).symm⟩, hsetting⟩

/-- A run gives the same on both sites, step by step, and leaves them alike. -/
theorem alike_runAll (h : Alike path present s m) (steps : List BackendStep) :
    (Act.runAll act steps s).1 = (Act.runAll act steps m).1 ∧
      Alike path (present ∨ ∃ step ∈ (Act.runAll act steps s).1, IsSet step) (Act.runAll act steps s).2
        (Act.runAll act steps m).2 := by
  induction steps generalizing present s m with
  | nil => exact ⟨rfl, h.of_iff (by simp [Act.runAll])⟩
  | cons step steps ih =>
    obtain ⟨reply, s', m', hs, hm, hstep⟩ := alike_act h step
    obtain ⟨hreplies, hrest⟩ := ih hstep
    rw [Act.runAll_cons, Act.runAll_cons, hs, hm]
    exact ⟨congrArg ((step, reply) :: ·) hreplies, hrest.of_iff (by simp only [List.exists_mem_cons_iff, or_assoc])⟩

/-- A file backend refines a mapping in memory, however often it is opened anew. Let the file at its path be absent, or hold
slots that load, and let it be writable and apart from the files of the journal. Then every run of gets, sets and openings
gives the same replies, values and faults alike, as on a memory backend that starts with the slots that load; and once a value
has been set, the file always holds the mapping that is in memory. -/
theorem file_backend_refines_memory (around : Surroundings) (path : Path) (initial : Slots) (sound : path.flaw? = none)
    (loads : around.files.has path = .ok false ∧ initial = [] ∨
      ∃ content, around.files.read path = .ok content ∧ StateFile.decode content = .ok initial)
    (writable : (around.files.replace around.medium path []).1 = .ok ())
    (apart : ∀ h ∈ around.journal.handlers, ∀ p, h.sink = .file p → p.Apart path) (steps : List BackendStep) :
    let file := Act.runAll act steps ⟨around, .newFile path⟩
    let memory := Act.runAll act steps ⟨around, .memory initial⟩
    file.1 = memory.1 ∧ ∃ slots, memory.2.backend = .memory slots ∧
      ((∃ key value reply, (set key value, .ok reply) ∈ file.1) →
        ∃ content held, file.2.around.files.read path = .ok content ∧ StateFile.decode content = .ok held ∧
          ∀ key, held.get? key = slots.get? key) := by
  intro file memory
  have hstart : ∃ present, Alike path present ⟨around, .newFile path⟩ ⟨around, .memory initial⟩ := by
    rcases loads with ⟨habsent, rfl⟩ | ⟨content, hread, hdecode⟩
    · exact ⟨False, ⟨[], rfl, sound, ⟨none, rfl, nofun⟩, .inr ⟨not_false, habsent, fun _ => rfl⟩, writable, apart⟩, rfl⟩
    · exact ⟨True, ⟨initial, rfl, sound, ⟨none, rfl, nofun⟩, .inl ⟨trivial, content, initial, hread, hdecode, fun _ => rfl⟩,
        writable, apart⟩, rfl⟩
  obtain ⟨present, hstart⟩ := hstart
  obtain ⟨hreplies, ⟨slots, hmemory, hmirrors⟩, -⟩ := alike_runAll hstart steps
  refine ⟨hreplies, slots, hmemory, ?_⟩
  rintro ⟨key, value, reply, hset⟩
  rcases hmirrors.file with ⟨-, hholds⟩ | ⟨hnot, -⟩
  · exact hholds
  · exact absurd (.inr ⟨_, hset, key, value, reply, rfl⟩) hnot

/-- A file with a slot, beside a log that takes every line: the slot is found after another was set and the backend opened
anew, and a key that is empty is refused. -/
theorem file_backend_refines_memory_reopened :
    let path : Path := ⟨.here, ["slots.json"]⟩
    let log : Path := ⟨.here, ["log.jsonl"]⟩
    let content : Bytes := Utf8.encode "\x7b\"version\": 1, \"slots\": \x7b\"0x 0A\": \"0xff\"\x7d\x7d".toList
    let around : Surroundings := {
      setting := ⟨[], some ⟨none, "WARNING", none, 1024, 64⟩⟩
      files := ⟨[(["slots.json"], .file content), (["log.jsonl"], .file [])]⟩
      medium := .sound "/work" "temporal"
      journal := { Journal.fresh with level := 10, handlers := [⟨10, .json, .file log⟩] }
      stamp := ⟨"2025-01-01T00:00:00", 1, 1, 4096⟩ }
    let steps := [get (.bytes [10]), set (.bytes [11]) (.buffer [1, 2]), reopen, get (.bytes []), get (.bytes [10])]
    path.flaw? = none ∧ (around.files.read path = .ok content ∧ StateFile.decode content = .ok [([10], [255])]) ∧
      (around.files.replace around.medium path []).1 = .ok () ∧
      (∀ h ∈ around.journal.handlers, ∀ p, h.sink = .file p → p.Apart path) ∧
      (Act.runAll act steps ⟨around, .newFile path⟩).1.map (·.2) =
        [.ok (.bytes [255]), .ok .none, .ok .none, .error (.storage .keyEmpty), .ok (.bytes [255])] ∧
      ∃ after held, (Act.runAll act steps ⟨around, .newFile path⟩).2.around.files.read path = .ok after ∧
        StateFile.decode after = .ok held ∧ held.get? [10] = some [255] ∧ held.get? [11] = some [1, 2] := by
  intro path log content around steps
  have hsound : path.flaw? = none := by decide
  have hread : around.files.read path = .ok content := rfl
  have hdecode : StateFile.decode content = .ok [([10], [255])] := toOption_eq_some.mp (by decide +kernel)
  have hwritable : (around.files.replace around.medium path []).1 = .ok () := by rfl
  have hapart : ∀ h ∈ around.journal.handlers, ∀ p, h.sink = .file p → p.Apart path := by
    rintro h hmem p hp t l hlog hpath
    obtain rfl := List.mem_singleton.mp hmem
    obtain rfl := Sink.file.inj hp
    -- A single name is found at the root whatever the tree holds.
    have hl : t.locate log = .ok ["log.jsonl"] := rfl
    have hs : t.locate path = .ok ["slots.json"] := rfl
    rw [hl] at hlog
    rw [hs, ← hlog] at hpath
    exact absurd (Except.ok.inj hpath) (by decide)
  obtain ⟨hreplies, slots, hslots, hfile⟩ := file_backend_refines_memory around path [([10], [255])] hsound
    (.inr ⟨content, hread, hdecode⟩) hwritable hapart steps
  obtain rfl : [([10], [255]), ([11], [1, 2])] = slots := Backend.memory.inj (Eq.trans (by rfl) hslots)
  obtain ⟨after, held, hafter, hheld, hsame⟩ := hfile ⟨.bytes [11], .buffer [1, 2], .none, by
    rw [hreplies]
    exact .tail _ (.head _)⟩
  refine ⟨hsound, ⟨hread, hdecode⟩, hwritable, hapart, ?_, after, held, hafter, hheld, hsame [10], hsame [11]⟩
  rw [hreplies]
  rfl

end BackendStep

end WordSlot
