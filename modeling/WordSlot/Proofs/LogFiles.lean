import WordSlot.Proofs.Files

/-!
# The files of the log

What the package logs is handed to the handlers that take its level. Each of them that writes to a file adds one line there, unless
the line cannot be made or has no UTF-8. So what logging leaves of the files is told by a list of lines, and all else but the
journal's streams stays as it was.
-/

namespace WordSlot

open Outcome

/-! ## Lines behind files -/

namespace FileTree

/-- Adds to the ends of files, one after the other. -/
def appendAll (t : FileTree) (lines : List (Path × Bytes)) : FileTree := lines.foldl (fun t line => t.append line.1 line.2) t

variable {t : FileTree} {lines : List (Path × Bytes)}

/-- Lines are added in their order. -/
theorem appendAll_append (t : FileTree) (lines more : List (Path × Bytes)) :
    t.appendAll (lines ++ more) = (t.appendAll lines).appendAll more :=
  List.foldl_append

/-- Lines that are added make or remove no entry. -/
theorem sameShape_appendAll (t : FileTree) (lines : List (Path × Bytes)) : SameShape t (t.appendAll lines) := by
  induction lines generalizing t with
  | nil => exact .refl t
  | cons line lines ih => exact (sameShape_append t line.1 line.2).trans (ih _)

/-- Nothing changes at a path that leads elsewhere than where lines are added. -/
theorem find_appendAll {path : Path} (apart : ∀ line ∈ lines, ∀ l, t.locate line.1 = .ok l → t.locate path ≠ .ok l) :
    (t.appendAll lines).find path = t.find path := by
  induction lines generalizing t with
  | nil => rfl
  | cons line lines ih =>
    obtain ⟨hline, hlines⟩ := List.forall_mem_cons.mp apart
    have hshape := sameShape_append t line.1 line.2
    refine (ih fun other hother l hl => ?_).trans (find_append hline line.2)
    rw [← hshape.locate] at hl ⊢
    exact hlines other hother l hl

end FileTree

/-! ## Handlers that take a level -/

namespace Journal

/-- The handlers that take what the package logs at a level: those at or below that level, if the package's level, or the warning
level where it has none, is not above it. -/
def takers (j : Journal) (level : Int) : List Handler :=
  if (if j.level = 0 then LogLevel.warning else j.level) ≤ level then j.handlers.filter (·.level ≤ level) else []

/-- A logger of the package passes a level on to the handlers that take it. -/
theorem takers_eq {j : Journal} {logger : Text} (hlogger : j.inPackage logger = true) {level : Int} (hlevel : 0 < level) :
    j.takers level = if j.passes logger level then j.reached logger level else [] := by
  have hthreshold : j.threshold logger = if j.level = 0 then LogLevel.warning else j.level := by
    unfold threshold
    by_cases hzero : j.level = 0 <;> simp [hlogger, hzero]
  unfold takers passes reached
  simp [hthreshold, hlogger, hlevel]

end Journal

/-! ## What logging leaves -/

/-- A record as the package makes it: under a logger's name, with the name and the number of a level. -/
def LogRecord.entry (logger levelName : Text) (level : Int) (message : Text) (args : List Value) (extras : Fields) : LogRecord :=
  { logger := .text logger, levelName := .text levelName, level := .int level, message := .text message, args := .tuple args,
    extras, failure := .ok none }

namespace Surroundings

/-- What a handler adds to its file for a record: the record's line with a line feed behind it, in UTF-8. -/
def fileLine? (s : Surroundings) (r : LogRecord) (h : Handler) : Option (Path × Bytes) :=
  match h.sink with
  | .stream _ => none
  | .file path => do
    let line ← (r.line s.stamp h.format s.journal.context.fields).toOption
    let content ← Utf8.encodeText? (line ++ "\n")
    pure (path, content)

/-- The lines that files take when the package logs a record at a level. -/
def linesOf (s : Surroundings) (level : Int) (r : LogRecord) : List (Path × Bytes) :=
  (s.journal.takers level).filterMap (s.fileLine? r)

/-- What logging leaves: the files have taken some lines, each where a handler writes to, and nothing else has changed but the
journal's streams. -/
structure Logged (lines : List (Path × Bytes)) (s s' : Surroundings) : Prop where
  setting : s'.setting = s.setting
  medium : s'.medium = s.medium
  stamp : s'.stamp = s.stamp
  journal : s'.journal = { s.journal with streams := s'.journal.streams }
  files : s'.files = s.files.appendAll lines
  sinks : ∀ line ∈ lines, ∃ h ∈ s.journal.handlers, h.sink = .file line.1

namespace Logged

variable {s s' : Surroundings} {lines : List (Path × Bytes)}

/-- What logs nothing leaves everything. -/
theorem refl (s : Surroundings) : Logged [] s s := ⟨rfl, rfl, rfl, rfl, rfl, nofun⟩

/-- The handlers are the same. -/
theorem handlers (h : Logged lines s s') : s'.journal.handlers = s.journal.handlers := by
  rw [h.journal]

/-- What is logged later adds its lines behind. -/
theorem trans {s'' : Surroundings} {more : List (Path × Bytes)} (h : Logged lines s s') (h' : Logged more s' s'') :
    Logged (lines ++ more) s s'' where
  setting := h'.setting.trans h.setting
  medium := h'.medium.trans h.medium
  stamp := h'.stamp.trans h.stamp
  journal := by rw [h'.journal, h.journal]
  files := by rw [h'.files, h.files, FileTree.appendAll_append]
  sinks := by
    intro line hline
    rcases List.mem_append.mp hline with hfirst | hlater
    · exact h.sinks line hfirst
    · rw [← h.handlers]
      exact h'.sinks line hlater

/-- What a handler adds for a record does not depend on what was logged before. -/
theorem fileLine? (h : Logged lines s s') (r : LogRecord) : s'.fileLine? r = s.fileLine? r := by
  have hcontext : s'.journal.context = s.journal.context := by rw [h.journal]
  funext handler
  rw [Surroundings.fileLine?, Surroundings.fileLine?, h.stamp, hcontext]

/-- What files take for a record does not depend on what was logged before. -/
theorem linesOf (h : Logged lines s s') (level : Int) (r : LogRecord) : s'.linesOf level r = s.linesOf level r := by
  have htakers : s'.journal.takers level = s.journal.takers level := by
    rw [h.journal]
    rfl
  rw [Surroundings.linesOf, Surroundings.linesOf, h.fileLine? r, htakers]

/-- Nothing changes at a path that leads elsewhere than where the log is written to. -/
theorem find_of_apart (h : Logged lines s s') {path : Path}
    (apart : ∀ h ∈ s.journal.handlers, ∀ p, h.sink = .file p → ∀ l, s.files.locate p = .ok l → s.files.locate path ≠ .ok l) :
    s'.files.find path = s.files.find path := by
  rw [h.files]
  refine FileTree.find_appendAll fun line hline l => ?_
  obtain ⟨handler, hhandler, hsink⟩ := h.sinks line hline
  exact apart handler hhandler line.1 hsink l

/-- Logging changes nothing at a path that no log is written to. -/
theorem find (h : Logged lines s s') {path : Path}
    (apart : ∀ h ∈ s.journal.handlers, ∀ p, h.sink = .file p → p.Apart path) :
    s.files.SameShape s'.files ∧ s'.files.find path = s.files.find path := by
  refine ⟨?_, h.find_of_apart fun handler hhandler p hsink => apart handler hhandler p hsink s.files⟩
  rw [h.files]
  exact FileTree.sameShape_appendAll _ _

/-- Where no handler writes to a file, no line is added and the files are the same. -/
theorem files_eq (h : Logged lines s s') (streams : ∀ h ∈ s.journal.handlers, ∀ p, h.sink ≠ .file p) : s'.files = s.files := by
  have hnone : lines = [] := by
    refine List.eq_nil_iff_forall_not_mem.mpr fun line hline => ?_
    obtain ⟨handler, hhandler, hsink⟩ := h.sinks line hline
    exact streams handler hhandler line.1 hsink
  rw [h.files, hnone]
  rfl

end Logged

/-- Writing a handler's line leaves that line in its file, or nothing. -/
theorem logged_deliver (r : LogRecord) (s : Surroundings) {h : Handler} (hh : h ∈ s.journal.handlers) :
    Logged (s.fileLine? r h).toList s (s.deliver r h) := by
  unfold fileLine? deliver
  cases hline : r.line s.stamp h.format s.journal.context.fields with
  | error f => cases hsink : h.sink <;> exact .refl s
  | ok line =>
    cases hsink : h.sink with
    | stream index => exact ⟨rfl, rfl, rfl, rfl, rfl, nofun⟩
    | file path =>
      cases hcontent : Utf8.encodeText? (line ++ "\n") with
      | none =>
        simp only [hcontent, Except.toOption, Option.bind_eq_bind, Option.bind_some, Option.bind_none]
        exact .refl s
      | some content =>
        simp only [hcontent, Except.toOption, Option.bind_eq_bind, Option.bind_some]
        exact ⟨rfl, rfl, rfl, rfl, rfl, List.forall_mem_singleton.mpr ⟨h, hh, hsink⟩⟩

/-- A record is delivered to one handler after the other. -/
theorem logged_deliveries (r : LogRecord) (hs : List Handler) (s : Surroundings) (hmem : ∀ h ∈ hs, h ∈ s.journal.handlers) :
    Logged (hs.filterMap (s.fileLine? r)) s (hs.foldl (deliver r) s) := by
  induction hs generalizing s with
  | nil => exact .refl s
  | cons h hs ih =>
    obtain ⟨hh, hhs⟩ := List.forall_mem_cons.mp hmem
    have hfirst := logged_deliver r s hh
    have hrest := ih (s.deliver r h) fun h' hh' => hfirst.handlers ▸ hhs h' hh'
    rw [hfirst.fileLine? r] at hrest
    have hlines : (h :: hs).filterMap (s.fileLine? r) = (s.fileLine? r h).toList ++ hs.filterMap (s.fileLine? r) := by
      cases hline : s.fileLine? r h <;> simp [hline]
    rw [hlines]
    exact hfirst.trans hrest

/-- A line of a logger of the package, at a level with a name and with extra fields of names of their own, is never a fault. The
files take the lines of its record. -/
theorem log_performs (logger : Text) (level : Int) (message : Value) (args : List Value) (extras : Fields) {r : LogRecord}
    (hlogger : ∀ j : Journal, j.inPackage logger = true) (hlevel : 0 < level)
    (hrecord : (LogRecord.make logger level message args >>= (·.withExtras extras)) = .ok r) (s : Surroundings) :
    ∃ s', (log logger level message args extras).perform s = (.ok (), s') ∧ Logged (s.linesOf level r) s s' := by
  unfold log linesOf
  rw [Act.perform_bind, Act.perform_get, Journal.takers_eq (hlogger s.journal) hlevel]
  by_cases hp : s.journal.passes logger level
  · simp only [hp, if_true, record, Act.perform_bind, Act.perform_ofExcept, hrecord, Act.perform_modify]
    refine ⟨_, rfl, logged_deliveries r _ s fun h hh => ?_⟩
    unfold Journal.reached at hh
    split at hh
    · exact List.mem_of_mem_filter hh
    · exact absurd hh List.not_mem_nil
  · simp only [hp]
    exact ⟨s, rfl, .refl s⟩

end Surroundings

end WordSlot
