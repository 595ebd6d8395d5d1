import WordSlot.Proofs.FileBackend

/-!
# Several backends on one file

Backends on the same path share nothing but the file. Each reads it once, when it first has a reason to, and then answers from
what it remembers; each that sets a value writes out all that it remembers. So what a backend answers from is told by the history:
the file as it was at the backend's first access, overlaid by what it set itself. `Coherent` carries that over every interleaving,
and says that the file holds what its last writer answers from. Updates are lost exactly where backends overlap: if they take
turns, the file holds the latest value of every key.
-/

namespace WordSlot

open Outcome

namespace FileTree

variable {t t' : FileTree} {path : Path}

/-- The mapping that a path stands for; nothing if it cannot be loaded. -/
def mapping (t : FileTree) (path : Path) : Slots := (t.load path).toOption.getD []

/-- A file that is loaded stands for its slots. -/
theorem mapping_of_load {slots : Slots} (h : t.load path = .ok slots) : t.mapping path = slots := by
  rw [mapping, h]
  rfl

/-- What a path stands for depends on what is found there. -/
theorem mapping_of_find (h : t'.find path = t.find path) : t'.mapping path = t.mapping path := by
  rw [mapping, mapping, load_of_find h]

/-- Slots are held up to their order. -/
theorem HoldsSlots.of_same {slots slots' : Slots} (h : t.HoldsSlots path slots) (hsame : slots.Same slots') :
    t.HoldsSlots path slots' := by
  obtain ⟨content, held, hread, hdecode, hheld⟩ := h
  exact ⟨content, held, hread, hdecode, fun key => (hheld key).trans (hsame key)⟩

/-- Whether slots are held at a path depends on what is found there. -/
theorem HoldsSlots.of_find {slots : Slots} (h : t.HoldsSlots path slots) (hfind : t'.find path = t.find path) :
    t'.HoldsSlots path slots := by
  unfold HoldsSlots read at *
  rw [hfind]
  exact h

/-- A file that holds a mapping is loaded as it. -/
theorem HoldsSlots.mapping {slots : Slots} (h : t.HoldsSlots path slots) : (t.mapping path).Same slots := by
  obtain ⟨content, held, hread, hdecode, hsame⟩ := h
  rw [mapping_of_load (load_eq_ok_iff.mpr (.inr ⟨content, hread, hdecode⟩))]
  exact hsame

end FileTree

/-- An access to a slot. -/
inductive SlotAccess where
  | get (key : Value)
  | set (key value : Value)

/-- The access as a step of a backend. -/
def SlotAccess.step : SlotAccess → BackendStep
  | .get key => .get key
  | .set key value => .set key value

/-- Backends in the same surroundings. -/
structure SharedFile (ι : Type) where
  around : Surroundings
  backends : ι → Backend

/-- An access that was made: by which backend, what the files were like before, and what it gave. -/
structure AccessEvent (ι : Type) where
  who : ι
  access : SlotAccess
  before : FileTree
  reply : Except Fault Value

variable {ι : Type}

namespace SharedFile

variable [DecidableEq ι]

/-- One of the backends makes an access. -/
def act (who : ι) (access : SlotAccess) : Act (SharedFile ι) Value :=
  access.step.act.onPart (fun s => ⟨s.around, s.backends who⟩)
    fun site s => ⟨site.around, Function.update s.backends who site.backend⟩

/-- Adds an access to those made so far. -/
def take (done : List (AccessEvent ι) × SharedFile ι) (step : ι × SlotAccess) : List (AccessEvent ι) × SharedFile ι :=
  let (reply, after) := (act step.1 step.2).perform done.2
  (done.1 ++ [⟨step.1, step.2, done.2.around.files, reply⟩], after)

/-- Makes accesses in the order given. -/
def run (s : SharedFile ι) (steps : List (ι × SlotAccess)) : List (AccessEvent ι) × SharedFile ι := steps.foldl take ([], s)

/-- A run ends with its last step. -/
theorem run_snoc (s : SharedFile ι) (steps : List (ι × SlotAccess)) (step : ι × SlotAccess) :
    s.run (steps ++ [step]) = take (s.run steps) step := by
  rw [run, List.foldl_append]
  rfl

end SharedFile

/-! ## What a history tells -/

namespace AccessEvent

/-- The access passed its checks. -/
def passed (e : AccessEvent ι) : Bool :=
  match e.reply with
  | .ok _ => true
  | .error _ => false

/-- What the access put under which key, if it was a set that passed. -/
def put? (e : AccessEvent ι) : Option (Bytes × Bytes) :=
  match e.access, e.reply with
  | .set key value, .ok _ => key.toBytes?.bind fun k => value.toBytes?.map fun w => (k, w)
  | _, _ => none

/-- The set that passed last. -/
def lastSet? (events : List (AccessEvent ι)) : Option (AccessEvent ι) := (events.filter (·.put?.isSome)).getLast?

/-- The first access of a backend that passed, between what came before and after it. -/
structure FirstAccess (events earlier : List (AccessEvent ι)) (e : AccessEvent ι) (later : List (AccessEvent ι)) : Prop where
  split : events = earlier ++ e :: later
  passed : e.passed = true
  first : ∀ x ∈ earlier, x.passed = true → x.who ≠ e.who

/-- Backends take turns: once one has its first access, none that had access before sets anything more. -/
def TakeTurns (events : List (AccessEvent ι)) : Prop :=
  ∀ earlier e later, FirstAccess events earlier e later →
    ∀ x ∈ earlier, x.passed = true → ∀ y ∈ later, y.who = x.who → y.put? = none

/-- A backend was overtaken: another one set something after its first access. -/
def Overtaken (events : List (AccessEvent ι)) (who : ι) : Prop :=
  ∃ earlier e later, FirstAccess events earlier e later ∧ e.who = who ∧ ∃ x ∈ later, x.who ≠ who ∧ x.put? ≠ none

section

variable {events : List (AccessEvent ι)} {e : AccessEvent ι}

/-- What is refused puts nothing. -/
theorem put?_of_refused (h : e.passed = false) : e.put? = none := by
  unfold passed at h
  unfold put?
  split at h
  · nomatch h
  · rename_i f hf
    rw [hf]
    cases e.access <;> rfl

/-- What puts a slot has passed. -/
theorem passed_of_put (h : e.put? ≠ none) : e.passed = true := by
  rw [← Bool.not_eq_false]
  exact fun hrefused => h (put?_of_refused hrefused)

/-- The puts of a history end with that of its last event. -/
theorem puts_snoc : (events ++ [e]).filterMap put? = events.filterMap put? ++ e.put?.toList := by
  rw [List.filterMap_append]
  cases h : e.put? <;> simp [h]

/-- A put that comes last is the last. -/
theorem lastSet?_snoc_put (h : e.put?.isSome = true) : lastSet? (events ++ [e]) = some e := by
  simp [lastSet?, List.filter_append, h]

/-- What puts nothing leaves the last put. -/
theorem lastSet?_snoc_other (h : e.put? = none) : lastSet? (events ++ [e]) = lastSet? events := by
  simp [lastSet?, List.filter_append, h]

/-- What is first stays first whatever comes later. -/
theorem FirstAccess.snoc {earlier later : List (AccessEvent ι)} {first : AccessEvent ι}
    (h : FirstAccess events earlier first later) : FirstAccess (events ++ [e]) earlier first (later ++ [e]) :=
  ⟨by rw [h.split, List.append_assoc, List.cons_append], h.passed, h.first⟩

/-- Who takes turns has taken turns before. -/
theorem TakeTurns.of_snoc (h : TakeTurns (events ++ [e])) : TakeTurns events := by
  intro earlier first later hfirst x hx hpassed y hy hwho
  exact h earlier first (later ++ [e]) hfirst.snoc x hx hpassed y (List.mem_append_left _ hy) hwho

/-- Who was overtaken remains so. -/
theorem Overtaken.snoc {who : ι} (h : Overtaken events who) : Overtaken (events ++ [e]) who := by
  obtain ⟨earlier, first, later, hfirst, hwho, x, hx, hset⟩ := h
  exact ⟨earlier, first, later ++ [e], hfirst.snoc, hwho, x, List.mem_append_left _ hx, hset⟩

end

variable [DecidableEq ι]

/-- The accesses of a backend that passed. -/
def own (events : List (AccessEvent ι)) (who : ι) : List (AccessEvent ι) :=
  events.filter fun e => decide (e.who = who) && e.passed

/-- What a backend answers from: the mapping in the file at its first access that passed, or now if there was none, overlaid by
what it put itself. -/
def view (path : Path) (now : FileTree) (events : List (AccessEvent ι)) (who : ι) : Slots :=
  ((((own events who).head?.map (·.before)).getD now).mapping path).putAll ((own events who).filterMap put?)

variable {path : Path} {now now' : FileTree} {events : List (AccessEvent ι)} {e : AccessEvent ι} {who : ι}

/-- An event of one's own that passed comes last among them. -/
theorem own_snoc_own (hwho : e.who = who) (hpassed : e.passed = true) : own (events ++ [e]) who = own events who ++ [e] := by
  simp [own, List.filter_append, hwho, hpassed]

/-- Other events are not one's own. -/
theorem own_snoc_other (h : ¬ (e.who = who ∧ e.passed = true)) : own (events ++ [e]) who = own events who := by
  simp only [own, List.filter_append, List.filter_cons, List.filter_nil]
  rw [if_neg (by simpa using h), List.append_nil]

/-- One's own events are those that passed. -/
theorem mem_own {x : AccessEvent ι} : x ∈ own events who ↔ x ∈ events ∧ x.who = who ∧ x.passed = true := by
  simp [own, List.mem_filter]

/-- A backend that had access had a first one. -/
theorem exists_firstAccess {x : AccessEvent ι} (hx : x ∈ events) (hpassed : x.passed = true) :
    ∃ earlier first later, FirstAccess events earlier first later ∧ first.who = x.who := by
  have hfound : (events.find? fun y => decide (y.who = x.who) && y.passed).isSome = true :=
    List.find?_isSome.mpr ⟨x, hx, by simp [hpassed]⟩
  obtain ⟨first, hfirst⟩ := Option.isSome_iff_exists.mp hfound
  obtain ⟨hp, earlier, later, hsplit, hnone⟩ := List.find?_eq_some_iff_append.mp hfirst
  simp only [Bool.and_eq_true, decide_eq_true_eq] at hp
  refine ⟨earlier, first, later, ⟨hsplit, hp.2, fun y hy hpassed hwho => ?_⟩, hp.1⟩
  have := hnone y hy
  simp [hpassed, hwho, hp.1] at this

/-- Where backends take turns, one that sets something was not overtaken. -/
theorem not_overtaken (h : TakeTurns (events ++ [e])) (hput : e.put? ≠ none) : ¬ Overtaken events e.who := by
  rintro ⟨earlier, first, later, hfirst, hwho, x, hx, hother, hset⟩
  -- The other backend had its own first access before or after this one's, and then one of the two came too late.
  by_cases hseen : ∃ y ∈ earlier, y.passed = true ∧ y.who = x.who
  · obtain ⟨y, hy, hpassed, hyx⟩ := hseen
    exact hset (h earlier first (later ++ [e]) hfirst.snoc y hy hpassed x (List.mem_append_left _ hx) hyx.symm)
  · obtain ⟨between, second, rest, hsecond, hsx⟩ := exists_firstAccess hx (passed_of_put hset)
    have hfirst' : FirstAccess (events ++ [e]) (earlier ++ first :: between) second (rest ++ [e]) := by
      refine ⟨by simp [hfirst.split, hsecond.split], hsecond.passed, fun y hy hpassed hys => ?_⟩
      rcases List.mem_append.mp hy with hy | hy
      · exact hseen ⟨y, hy, hpassed, hys.trans hsx⟩
      · rcases List.mem_cons.mp hy with rfl | hy
        · exact hother ((hys.trans hsx).symm.trans hwho)
        · exact hsecond.first y hy hpassed hys
    exact hput (h _ second _ hfirst' first (by simp) hfirst.passed e (by simp) hwho.symm)

/-- Who has done nothing sees the file. -/
theorem view_of_own_nil (h : own events who = []) : view path now events who = now.mapping path := by
  rw [view, h]
  rfl

/-- Once a backend had access, it does not matter to it what the files are like. -/
theorem view_congr (h : own events who = [] → now.mapping path = now'.mapping path) :
    view path now events who = view path now' events who := by
  unfold view
  cases howned : own events who with
  | nil =>
    simp only [List.head?_nil, Option.map_none, Option.getD_none, h howned]
  | cons first rest => rfl

/-- An access of its own that passed overlays what the backend answers from. -/
theorem view_snoc_own (hwho : e.who = who) (hpassed : e.passed = true) :
    view path now (events ++ [e]) who = (view path e.before events who).putAll e.put?.toList := by
  unfold view
  rw [own_snoc_own hwho hpassed, puts_snoc, Slots.putAll_append]
  cases own events who with
  | nil => rfl
  | cons first rest => rfl

/-- Other events do not change what one sees. -/
theorem view_snoc_other (h : ¬ (e.who = who ∧ e.passed = true)) :
    view path now (events ++ [e]) who = view path now events who := by
  unfold view
  rw [own_snoc_other h]

/-- An access that puts nothing changes what no backend answers from. -/
theorem view_snoc_of_no_put (hput : e.put? = none) (hmapping : now.mapping path = e.before.mapping path) :
    view path now (events ++ [e]) who = view path e.before events who := by
  by_cases h : e.who = who ∧ e.passed = true
  · rw [view_snoc_own h.1 h.2, hput]
    rfl
  · rw [view_snoc_other h]
    exact view_congr fun _ => hmapping

end AccessEvent

/-! ## One access -/

namespace SharedFile

open AccessEvent

variable [DecidableEq ι] {path : Path} {events : List (AccessEvent ι)} {s s' : SharedFile ι} {e : AccessEvent ι}

/-- A backend acts on its own state and on the surroundings of all. -/
theorem act_perform (who : ι) (access : SlotAccess) (s : SharedFile ι) :
    (act who access).perform s =
      ((access.step.act.perform ⟨s.around, s.backends who⟩).1,
        ⟨(access.step.act.perform ⟨s.around, s.backends who⟩).2.around,
          Function.update s.backends who (access.step.act.perform ⟨s.around, s.backends who⟩).2.backend⟩) := rfl

/-- Backends as the history tells: each remembers what it answers from if it had access, else nothing, and the file holds what
its last writer answers from. -/
structure Coherent (path : Path) (events : List (AccessEvent ι)) (s : SharedFile ι) : Prop where
  carries : ∃ present, s.around.Carries path present (s.around.files.mapping path)
  backend : ∀ who, ∃ held, s.backends who = .file path held ∧ (held = none → own events who = []) ∧
    ∀ g, held = some g → own events who ≠ [] ∧ g.WellFormed ∧ g.Same (view path s.around.files events who)
  file : ∀ e, lastSet? events = some e → s.around.files.HoldsSlots path (view path s.around.files events e.who)

/-- What an access does: one that does not pass leaves all as it is, and one that passes leaves its backend with what it answers
from; only a set changes the file, to just that. -/
structure Step (path : Path) (events : List (AccessEvent ι)) (s : SharedFile ι) (e : AccessEvent ι) (s' : SharedFile ι) :
    Prop where
  before : e.before = s.around.files
  carries : ∃ present, s'.around.Carries path present (s'.around.files.mapping path)
  others : ∀ who, who ≠ e.who → s'.backends who = s.backends who
  refused : e.passed = false → s'.backends e.who = s.backends e.who
  taken : e.passed = true → ∃ new, s'.backends e.who = .file path (some new) ∧ new.WellFormed ∧
    new.Same ((view path s.around.files events e.who).putAll e.put?.toList) ∧
    (e.put?.isSome = true → s'.around.files.HoldsSlots path new)
  kept : e.put? = none → s'.around.files.find path = s.around.files.find path

/-- What a backend remembers or loads is what it answers from. -/
theorem Coherent.held (h : Coherent path events s) (who : ι) :
    ∃ held, s.backends who = .file path held ∧ (∀ g, held = some g → g.WellFormed) ∧
      (held.getD (s.around.files.mapping path)).Same (view path s.around.files events who) := by
  obtain ⟨held, hb, hnone, hsome⟩ := h.backend who
  refine ⟨held, hb, fun g hg => (hsome g hg).2.1, ?_⟩
  cases held with
  | none =>
    rw [view_of_own_nil (hnone rfl)]
    exact fun _ => rfl
  | some g => exact (hsome g rfl).2.2

/-- An access that fails its checks: the configuration may have been read, and that is all. -/
theorem step_refused (h : Coherent path events s) {who : ι} {access : SlotAccess} {f : Fault} {setting : Setting}
    (hperform : access.step.act.perform ⟨s.around, s.backends who⟩ =
      (.error f, (⟨s.around, s.backends who⟩ : Site).withSetting setting)) :
    ∃ s', (act who access).perform s = (.error f, s') ∧ Step path events s ⟨who, access, s.around.files, .error f⟩ s' := by
  obtain ⟨present, hcarries⟩ := h.carries
  refine ⟨⟨{ s.around with setting }, s.backends⟩, ?_, rfl, ⟨present, ?_⟩, fun _ _ => rfl, fun _ => rfl, nofun, fun _ => rfl⟩
  · rw [act_perform, hperform]
    simp only [Site.withSetting, Function.update_eq_self]
  · exact ⟨hcarries.sound, hcarries.file, hcarries.writable, hcarries.apart⟩

/-- Getting gives what the backend answers with. -/
theorem step_get (h : Coherent path events s) (who : ι) (key : Value) :
    let reply := (admission key s.around.setting).1.map (view path s.around.files events who).found
    ∃ s', (act who (.get key)).perform s = (reply, s') ∧ Step path events s ⟨who, .get key, s.around.files, reply⟩ s' := by
  obtain ⟨held, hb, hheld, hsame⟩ := h.held who
  obtain ⟨present, hcarries⟩ := h.carries
  have hget := Surroundings.Carries.getSlot (s := ⟨s.around, s.backends who⟩) hcarries hb hheld key
  dsimp only at hget ⊢
  cases hk : (admission key s.around.setting).1 with
  | error f =>
    rw [hk] at hget
    exact step_refused h hget
  | ok k =>
    rw [hk] at hget
    obtain ⟨loaded, around, hperform, hwf, hloaded, hl⟩ := hget
    have hview : loaded.Same (view path s.around.files events who) := fun key => (hloaded key).trans (hsame key)
    obtain ⟨-, hfind⟩ := hl.find hcarries.apart
    have hcarried := Surroundings.Carries.logged (hcarries.withSetting (s := ⟨s.around, s.backends who⟩) _) hl
    refine ⟨⟨around, Function.update s.backends who (.file path (some loaded))⟩, ?_, rfl, ⟨present, ?_⟩, ?_, nofun, ?_, ?_⟩
    · have hact : (SlotAccess.get key).step.act = Site.getSlot key := rfl
      rw [act_perform, hact, hperform, hview.found]
      rfl
    · rw [FileTree.mapping_of_find hfind]
      exact hcarried
    · intro other hother
      exact Function.update_of_ne hother _ _
    · intro _
      exact ⟨loaded, Function.update_self _ _ _, hwf, hview, nofun⟩
    · exact fun _ => hfind

/-- Setting overlays what the backend answers from and writes it out. -/
theorem step_set (h : Coherent path events s) (who : ι) (key value : Value) :
    let checked := (admission key s.around.setting).1 >>= fun k => (checkValue value).map fun w => (k, w)
    let reply := checked.map fun _ => Value.none
    ∃ s', (act who (.set key value)).perform s = (reply, s') ∧
      Step path events s ⟨who, .set key value, s.around.files, reply⟩ s' := by
  obtain ⟨held, hb, hheld, hsame⟩ := h.held who
  obtain ⟨present, hcarries⟩ := h.carries
  have hset := Surroundings.Carries.setSlot (s := ⟨s.around, s.backends who⟩) hcarries hb hheld key value
  have hact : (SlotAccess.set key value).step.act = (do Site.setSlot key value; pure Value.none) := rfl
  dsimp only at hset ⊢
  cases hkw : ((admission key s.around.setting).1 >>= fun k => (checkValue value).map fun w => (k, w)) with
  | error f =>
    rw [hkw] at hset
    have hfail : (SlotAccess.set key value).step.act.perform ⟨s.around, s.backends who⟩ =
        (.error f, (⟨s.around, s.backends who⟩ : Site).withSetting (admission key s.around.setting).2) := by
      rw [hact, Act.perform_bind_pure, hset]
      rfl
    exact step_refused h hfail
  | ok kw =>
    obtain ⟨k, w⟩ := kw
    rw [hkw] at hset
    obtain ⟨new, lines, around, files, hperform, hwf, hnew, hl, hcarried⟩ := hset
    have hput : (⟨who, .set key value, s.around.files, .ok .none⟩ : AccessEvent ι).put? = some (k, w) := by
      obtain ⟨k', hk, hw⟩ := bind_eq_ok.mp hkw
      obtain ⟨w', hw', hpair⟩ := map_eq_ok.mp hw
      cases hpair
      simp [put?, (of_admission_eq_ok hk).1, (checkValue_eq_ok_iff.mp hw').1]
    have hholds : files.HoldsSlots path new := by
      rcases hcarried.file with ⟨-, hholds⟩ | ⟨habsent, -⟩
      · exact hholds
      · exact absurd trivial habsent
    refine ⟨⟨{ around with files }, Function.update s.backends who (.file path (some new))⟩, ?_, rfl, ⟨True, ?_⟩, ?_, nofun,
      ?_, ?_⟩
    · rw [act_perform, hact, Act.perform_bind_pure, hperform]
      rfl
    · exact hcarried.of_same fun key => (hholds.mapping key).symm
    · intro other hother
      exact Function.update_of_ne hother _ _
    · intro _
      refine ⟨new, Function.update_self _ _ _, hwf, ?_, fun _ => hholds⟩
      simp only [Except.map, hput, Option.toList_some]
      exact fun key => (hnew key).trans (hsame.put k w key)
    · simp only [Except.map, hput]
      exact nofun

/-- Every access is such a step. -/
theorem step_take (h : Coherent path events s) (step : ι × SlotAccess) :
    ∃ e s', take (events, s) step = (events ++ [e], s') ∧ Step path events s e s' := by
  obtain ⟨who, access⟩ := step
  cases access with
  | get key =>
    obtain ⟨s', hperform, hstep⟩ := step_get h who key
    refine ⟨_, s', ?_, hstep⟩
    rw [take, hperform]
  | set key value =>
    obtain ⟨s', hperform, hstep⟩ := step_set h who key value
    refine ⟨_, s', ?_, hstep⟩
    rw [take, hperform]

/-! ## Every interleaving -/

/-- A step that puts nothing leaves what every backend answers from. -/
theorem Step.view_of_no_put (hstep : Step path events s e s') (hput : e.put? = none) (who : ι) :
    view path s'.around.files (events ++ [e]) who = view path s.around.files events who := by
  have hmapping : s'.around.files.mapping path = e.before.mapping path := by
    rw [hstep.before]
    exact FileTree.mapping_of_find (hstep.kept hput)
  rw [view_snoc_of_no_put hput hmapping, hstep.before]

/-- A step that passes leaves its backend with what it answers from then. -/
theorem Step.view_self (hstep : Step path events s e s') (hpassed : e.passed = true) :
    view path s'.around.files (events ++ [e]) e.who =
      (view path s.around.files events e.who).putAll e.put?.toList := by
  rw [view_snoc_own rfl hpassed, hstep.before]

/-- A step keeps the file and the backends coherent. -/
theorem Coherent.step (h : Coherent path events s) (hstep : Step path events s e s') : Coherent path (events ++ [e]) s' where
  carries := hstep.carries
  backend := by
    intro who
    by_cases hown : e.who = who ∧ e.passed = true
    · obtain ⟨rfl, hpassed⟩ := hown
      obtain ⟨new, hb, hwf, hsame, -⟩ := hstep.taken hpassed
      refine ⟨some new, hb, nofun, ?_⟩
      rintro _ ⟨rfl⟩
      refine ⟨?_, hwf, ?_⟩
      · rw [own_snoc_own rfl hpassed]
        simp
      · rw [hstep.view_self hpassed]
        exact hsame
    · obtain ⟨held, hb, hnone, hsome⟩ := h.backend who
      have hkept : s'.backends who = s.backends who := by
        by_cases hwho : who = e.who
        · have hrefused : e.passed = false := by
            rw [Bool.eq_false_iff]
            exact fun hpassed => hown ⟨hwho.symm, hpassed⟩
          rw [hwho]
          exact hstep.refused hrefused
        · exact hstep.others who hwho
      rw [own_snoc_other hown, view_snoc_other hown]
      refine ⟨held, hkept.trans hb, hnone, fun g hg => ?_⟩
      obtain ⟨hne, hwf, hsame⟩ := hsome g hg
      refine ⟨hne, hwf, ?_⟩
      rw [view_congr fun hnil => absurd hnil hne]
      exact hsame
  file := by
    intro last hlast
    cases hput : e.put? with
    | none =>
      rw [lastSet?_snoc_other hput] at hlast
      rw [hstep.view_of_no_put hput]
      exact (h.file last hlast).of_find (hstep.kept hput)
    | some kw =>
      have hsome : e.put?.isSome = true := by rw [hput]; rfl
      have hpassed : e.passed = true := passed_of_put (by rw [hput]; exact nofun)
      rw [lastSet?_snoc_put hsome] at hlast
      cases hlast
      obtain ⟨new, -, -, hsame, hholds⟩ := hstep.taken hpassed
      rw [hstep.view_self hpassed]
      exact (hholds hsome).of_same hsame

/-- Each backend that had access is up to date with the file, unless it was overtaken. -/
def Current (path : Path) (events : List (AccessEvent ι)) (s : SharedFile ι) : Prop :=
  ∀ who, own events who ≠ [] →
    (s.around.files.mapping path).Same (view path s.around.files events who) ∨ Overtaken events who

/-- A set leaves the file with what its backend answers from then. -/
theorem Step.mapping_of_put (hstep : Step path events s e s') (hput : e.put? ≠ none) :
    (s'.around.files.mapping path).Same ((view path s.around.files events e.who).putAll e.put?.toList) := by
  obtain ⟨new, -, -, hsame, hholds⟩ := hstep.taken (passed_of_put hput)
  have hnew := (hholds (Option.isSome_iff_ne_none.mpr hput)).mapping
  exact fun key => (hnew key).trans (hsame key)

/-- A step keeps the backends current. -/
theorem Current.step (h : Current path events s) (hstep : Step path events s e s') : Current path (events ++ [e]) s' := by
  intro who hown
  by_cases hput : e.put? = none
  · rw [hstep.view_of_no_put hput, FileTree.mapping_of_find (hstep.kept hput)]
    by_cases hnil : own events who = []
    · -- This was the backend's first access.
      rw [view_of_own_nil hnil]
      exact .inl fun _ => rfl
    · rcases h who hnil with hsame | hovertaken
      · exact .inl hsame
      · exact .inr hovertaken.snoc
  · have hpassed := passed_of_put hput
    by_cases hwho : e.who = who
    · subst hwho
      rw [hstep.view_self hpassed]
      exact .inl (hstep.mapping_of_put hput)
    · rw [own_snoc_other fun hself => hwho hself.1] at hown
      obtain ⟨x, hmem⟩ := List.exists_mem_of_ne_nil _ hown
      obtain ⟨hx, rfl, hxpassed⟩ := mem_own.mp hmem
      obtain ⟨earlier, first, later, hfirst, hfx⟩ := exists_firstAccess hx hxpassed
      exact .inr ⟨earlier, first, later ++ [e], hfirst.snoc, hfx, e, by simp, hwho, hput⟩

/-- Where backends take turns, a set adds to what was in the file. -/
theorem Step.mapping_of_turns (hstep : Step path events s e s') (hcurrent : Current path events s)
    (hturns : TakeTurns (events ++ [e])) :
    (s'.around.files.mapping path).Same ((s.around.files.mapping path).putAll e.put?.toList) := by
  by_cases hput : e.put? = none
  · rw [FileTree.mapping_of_find (hstep.kept hput), hput]
    exact fun _ => rfl
  · have hview : (view path s.around.files events e.who).Same (s.around.files.mapping path) := by
      by_cases hnil : own events e.who = []
      · rw [view_of_own_nil hnil]
        exact fun _ => rfl
      · rcases hcurrent e.who hnil with hsame | hovertaken
        · exact fun key => (hsame key).symm
        · exact absurd hovertaken (not_overtaken hturns hput)
    exact fun key => (hstep.mapping_of_put hput key).trans (hview.putAll e.put?.toList key)

/-- What an interleaving leaves: coherent backends that are current unless they were overtaken, and, where they took turns, all
that was put in the file. -/
theorem run_coherent {start : Slots} (h : Coherent path [] s) (hstart : s.around.files.mapping path = start)
    (steps : List (ι × SlotAccess)) :
    Coherent path (s.run steps).1 (s.run steps).2 ∧ Current path (s.run steps).1 (s.run steps).2 ∧
      (TakeTurns (s.run steps).1 →
        ((s.run steps).2.around.files.mapping path).Same (start.putAll ((s.run steps).1.filterMap put?))) := by
  induction steps using List.reverseRecOn with
  | nil =>
    refine ⟨h, fun who hown => absurd rfl hown, fun _ key => ?_⟩
    rw [← hstart]
    rfl
  | append_singleton steps step ih =>
    obtain ⟨hcoherent, hcurrent, hlatest⟩ := ih
    obtain ⟨e, s', htake, hstep⟩ := step_take hcoherent step
    rw [run_snoc, ← Prod.mk.eta (p := s.run steps), htake]
    refine ⟨hcoherent.step hstep, hcurrent.step hstep, fun hturns key => ?_⟩
    rw [hstep.mapping_of_turns hcurrent hturns key, puts_snoc, Slots.putAll_append]
    exact (hlatest hturns.of_snoc).putAll e.put?.toList key

/-- Backends on one path. Let there be no file at a path, or one that loads as `start`, that can be written and that no log is
written to. Whatever any number of backends on that path get and set, in any order, each answers from the mapping in the file at
its first access that passed its checks, overlaid by what it set itself; an access is refused by its checks alone. The file always
loads, and once something was set it holds just what the backend that set last answers from, which is what a backend without
access so far starts from. If the backends take turns, the file holds the latest value of every key. -/
theorem backends_answer_from_first_access (around : Surroundings) (path : Path) (start : Slots) (sound : path.flaw? = none)
    (loads : around.files.load path = .ok start) (writable : (around.files.replace around.medium path []).1 = .ok ())
    (apart : ∀ h ∈ around.journal.handlers, ∀ p, h.sink = .file p → p.Apart path) (steps : List (ι × SlotAccess)) :
    let shared : SharedFile ι := ⟨around, fun _ => .newFile path⟩
    let events := (shared.run steps).1
    let s := (shared.run steps).2
    let view := AccessEvent.view path s.around.files events
    (∀ who key, ((act who (.get key)).perform s).1 = (admission key s.around.setting).1.map (view who).found) ∧
    (∀ who key value, ((act who (.set key value)).perform s).1 =
      ((admission key s.around.setting).1 >>= fun k => (checkValue value).map fun w => (k, w)).map fun _ => Value.none) ∧
    (∀ e, lastSet? events = some e →
      s.around.files.HoldsSlots path (view e.who) ∧ ∀ who, own events who = [] → (view who).Same (view e.who)) ∧
    ∃ now, s.around.files.load path = .ok now ∧ (TakeTurns events → now.Same (start.putAll (events.filterMap put?))) := by
  intro shared events s view
  have hstart : shared.around.files.mapping path = start := FileTree.mapping_of_load loads
  have hinit : Coherent path [] shared := by
    refine ⟨⟨around.files.has path ≠ .ok false, ⟨sound, ?_, writable, apart⟩⟩, fun who => ⟨none, rfl, fun _ => rfl, nofun⟩, nofun⟩
    rw [hstart]
    rcases FileTree.load_eq_ok_iff.mp loads with ⟨habsent, rfl⟩ | ⟨content, hread, hdecode⟩
    · exact .inr ⟨fun h => h habsent, habsent, fun _ => rfl⟩
    · refine .inl ⟨?_, content, start, hread, hdecode, fun _ => rfl⟩
      rw [FileTree.has_of_read hread]
      exact nofun
  obtain ⟨hcoherent, -, hlatest⟩ := run_coherent hinit hstart steps
  refine ⟨fun who key => ?_, fun who key value => ?_, fun e he => ⟨hcoherent.file e he, fun who hnil => ?_⟩, ?_⟩
  · obtain ⟨s', hperform, -⟩ := step_get hcoherent who key
    exact congrArg Prod.fst hperform
  · obtain ⟨s', hperform, -⟩ := step_set hcoherent who key value
    exact congrArg Prod.fst hperform
  · rw [show view who = s.around.files.mapping path from view_of_own_nil hnil]
    exact (hcoherent.file e he).mapping
  · obtain ⟨present, hcarries⟩ := hcoherent.carries
    obtain ⟨now, hnow, -⟩ := hcarries.load
    refine ⟨now, hnow, fun hturns => ?_⟩
    rw [← FileTree.mapping_of_load hnow]
    exact hlatest hturns

/-- Two backends overlap: the first has read the file before the second sets a key, so its own set undoes that one; the second
still answers from what it set. -/
theorem backends_answer_from_first_access_overlapping :
    let path : Path := ⟨.here, ["slots.json"]⟩
    let around : Surroundings := {
      setting := ⟨[], some ⟨none, "WARNING", none, 1024, 64⟩⟩
      files := .empty
      medium := .sound "/work" "temporal"
      journal := .fresh
      stamp := ⟨"2025-01-01T00:00:00", 1, 1, 4096⟩ }
    let shared : SharedFile Bool := ⟨around, fun _ => .newFile path⟩
    let steps := [(false, SlotAccess.get (.bytes [9])), (true, .set (.bytes [1]) (.bytes [7])),
      (false, .set (.bytes [2]) (.bytes [8]))]
    path.flaw? = none ∧ around.files.load path = .ok [] ∧ (around.files.replace around.medium path []).1 = .ok () ∧
      (∀ h ∈ around.journal.handlers, ∀ p, h.sink = .file p → p.Apart path) ∧
      (shared.run steps).2.around.files.HoldsSlots path [([2], [8])] ∧
      ((act true (.get (.bytes [1]))).perform (shared.run steps).2).1 = .ok (.bytes [7]) := by
  intro path around shared steps
  have hsound : path.flaw? = none := by decide
  have hloads : around.files.load path = .ok [] := rfl
  have hwritable : (around.files.replace around.medium path []).1 = .ok () := by rfl
  have hfile : AccessEvent.view path (shared.run steps).2.around.files (shared.run steps).1 false = [([2], [8])] := by
    decide +kernel
  have hother : AccessEvent.view path (shared.run steps).2.around.files (shared.run steps).1 true = [([1], [7])] := by
    decide +kernel
  have hwriter : (lastSet? (shared.run steps).1).map (·.who) = some false := by decide +kernel
  have hadmitted : (admission (.bytes [1]) (shared.run steps).2.around.setting).1 = .ok [1] :=
    toOption_eq_some.mp (by decide +kernel)
  have hshared : shared = ⟨around, fun _ => .newFile path⟩ := rfl
  obtain ⟨hget, -, hlast, -⟩ := backends_answer_from_first_access around path [] hsound hloads hwritable nofun steps
  rw [← hshared] at hget hlast
  refine ⟨hsound, hloads, hwritable, nofun, ?_, ?_⟩
  · obtain ⟨e, he, hwho⟩ := Option.map_eq_some_iff.mp hwriter
    have hholds := (hlast e he).1
    rw [hwho, hfile] at hholds
    exact hholds
  · rw [hget, hother, hadmitted]
    rfl

end SharedFile

end WordSlot
