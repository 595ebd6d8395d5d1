import WordSlot.Proofs.Execution
import WordSlot.Proofs.Notices

/-!
# The host's log as an audit trail

However often the log is configured anew between the calls on a host, the stream configured last takes one line for every outcome,
in the order of the calls, and no other stream takes any. The trail of a run is the list of its stretches between configurations,
each with the outcomes that fall into it, beside the pages that the streams hold. One event adds to both alike, so the law for
whole runs follows by induction over the events.
-/

namespace WordSlot

open Outcome

/-! ## Events -/

/-- What can happen: the log is configured to take everything on a new console stream, or a call is made. -/
inductive Happening where
  | configure (json terminal : Bool)
  | call (made : HostCall)

/-- What happens and when, in milliseconds since the start of 1970. -/
structure Event where
  time : Int
  what : Happening

/-- Surroundings whose clock shows a time. -/
def Surroundings.atTime (s : Surroundings) (time : Text) : Surroundings := { s with stamp := { s.stamp with time } }

/-- A site whose clock shows a time. -/
def Site.atTime (s : Site) (time : Text) : Site := { s with around := s.around.atTime time }

/-- Lets something happen; a call gives its outcome. -/
def Happening.act : Happening → Act Site (Option Envelope)
  | .configure json terminal => do
    Site.aroundAct (Surroundings.configureLog (some json) (.text "DEBUG") terminal .none)
    pure none
  | .call made => do pure (some (← made.act))

/-- Lets an event happen when the clock shows its time. -/
def Event.act (e : Event) : Act Site (Option Envelope) := do
  modify (·.atTime (Clock.text e.time))
  e.what.act

/-- The outcomes between two configurations of the log, each with its time, and what the log was configured with before them. -/
structure Stretch where
  json : Bool
  terminal : Bool
  outcomes : List (Int × Envelope)

namespace Stretch

/-- The format of the lines. -/
def format (env : Environment) (t : Stretch) : LineFormat := if t.json then .json else .text (supportsColour env t.terminal)

/-- The stretch with one more outcome. -/
def noting (t : Stretch) (time : Int) (e : Envelope) : Stretch := { t with outcomes := t.outcomes ++ [(time, e)] }

/-- What an event adds: a new stretch, or an outcome to the last one, or nothing if a call has none. -/
def extend (stretches : List Stretch) : Event × Except Fault (Option Envelope) → List Stretch
  | (⟨_, .configure json terminal⟩, _) => stretches ++ [⟨json, terminal, []⟩]
  | (⟨time, .call _⟩, .ok (some e)) => stretches.modify (stretches.length - 1) (·.noting time e)
  | _ => stretches

/-- The stretches of a history. -/
def ofHistory (history : List (Event × Except Fault (Option Envelope))) : List Stretch := history.foldl extend []

/-- The last entry of a history extends the stretches of the others. -/
theorem ofHistory_snoc (history : List (Event × Except Fault (Option Envelope))) (entry : Event × Except Fault (Option Envelope)) :
    ofHistory (history ++ [entry]) = extend (ofHistory history) entry :=
  List.foldl_append

/-- A page of lines tells a stretch: it has one line for each outcome, which takes one line and tells of it. -/
def ToldBy (around : Surroundings) (t : Stretch) (page : List Text) : Prop :=
  List.Forall₂ (fun outcome line => line.OneLine ∧ ∃ n, outcome.2.Noted n ∧
    n.ToldBy (around.atTime (Clock.text outcome.1)).stamp around.journal.context.fields (t.format around.setting.env) line)
    t.outcomes page

end Stretch

/-! ## A journal that listens -/

/-- A line and the line feed that ends it. -/
def Text.ended (line : Text) : Text := line ++ "\n"

/-- The journal takes everything, in one format and on its last stream. -/
structure Journal.Listens (j : Journal) (format : LineFormat) : Prop where
  level : j.level = LogLevel.debug
  handlers : j.handlers = [⟨LogLevel.debug, format, .stream j.current⟩]

namespace Surroundings

/-- Surroundings whose journal listens, and in which every notice can be written. -/
structure Attend (s : Surroundings) (format : LineFormat) : Prop where
  listens : s.journal.Listens format
  context : s.journal.context.fields.FitLines format
  stamp : s.stamp.FitsLines

/-- The surroundings once the last stream has taken a line. -/
def told (s : Surroundings) (line : Text) : Surroundings :=
  { s with journal := s.journal.write s.journal.current line.ended }

variable {s : Surroundings} {format : LineFormat}

/-- What the host logs is written to the last stream, and to nothing else. -/
theorem log_told (h : s.journal.Listens format) {level : Int} (hlevel : LogLevel.debug ≤ level) {message : Value}
    {args : List Value} {extras : Fields} {r : LogRecord}
    (hrecord : (LogRecord.make Site.hostLogger level message args >>= (·.withExtras extras)) = .ok r) {line : Text}
    (hline : r.line s.stamp format s.journal.context.fields = .ok line) :
    (log Site.hostLogger level message args extras).perform s = (.ok (), s.told line) := by
  have hpackage : s.journal.inPackage Site.hostLogger = true := rfl
  have hpasses : s.journal.passes Site.hostLogger level = true := by
    have hpositive : 0 < level := lt_of_lt_of_le (by decide) hlevel
    simp only [Journal.passes, Journal.threshold, hpackage, h.level]
    simpa using ⟨hpositive, hlevel⟩
  have hreached : s.journal.reached Site.hostLogger level = [⟨LogLevel.debug, format, .stream s.journal.current⟩] := by
    simp [Journal.reached, hpackage, h.handlers, hlevel]
  have hemit : s.emit Site.hostLogger level r = s.told line := by
    simp only [emit, hreached, List.foldl_cons, List.foldl_nil, deliver, hline]
    rfl
  unfold log
  rw [Act.perform_bind, Act.perform_get]
  simp only [hpasses, if_true]
  unfold record
  rw [Act.perform_bind, Act.perform_ofExcept, hrecord]
  simp only [Act.perform_modify, hemit]

/-- That a call was applied is told in one line. -/
theorem Attend.applied (h : s.Attend format) {name : Text} (hname : name.OneLine) :
    ∃ line, (Site.logApplied name).perform s = (.ok (), s.told line) ∧ line.OneLine ∧
      (Notice.applied name).ToldBy s.stamp s.journal.context.fields format line := by
  obtain ⟨line, hline, htold⟩ := (LogRecord.says_applied hname).line format h.context h.stamp
  exact ⟨line, log_told h.listens (by decide) (LogRecord.make_applied name) hline, htold⟩

/-- That a call was rejected is told in one line. -/
theorem Attend.rejected (h : s.Attend format) {f : StoreFault} (hf : f.message.OneLine) :
    ∃ line, (Site.logRejected f).perform s = (.ok (), s.told line) ∧ line.OneLine ∧
      (Notice.rejected f.message f.family.code).ToldBy s.stamp s.journal.context.fields format line := by
  have hcode : (Text.ofString f.family.code).OneLine := by cases f.family <;> decide
  obtain ⟨line, hline, htold⟩ := (LogRecord.says_rejected hf hcode).line format h.context h.stamp
  exact ⟨line, log_told h.listens (by decide) (LogRecord.make_rejected _ _) hline, htold⟩

end Surroundings

/-! ## Calls -/

namespace Setting

/-- Loading the configuration leaves the environment. -/
theorem env_load (s : Setting) : s.load.2.env = s.env := by
  unfold load
  cases s.cached with
  | some c => rfl
  | none => cases Config.ofEnvironment s.env <;> rfl

/-- Admitting a key leaves the environment. -/
theorem env_admission (key : Value) (s : Setting) : (admission key s).2.env = s.env := by
  unfold admission
  cases keyBytes key with
  | error f => rfl
  | ok b =>
    have hload := env_load s
    cases hl : s.load with
    | mk result after =>
      rw [hl] at hload
      cases result <;> exact hload

end Setting

namespace Site

/-- Nothing around the site has changed but the setting, and that not in its environment. -/
structure Asked (s s' : Site) : Prop where
  around : s'.around = { s.around with setting := s'.around.setting }
  env : s'.around.setting.env = s.around.setting.env

/-- The site once the last stream has taken a line. -/
def told (s : Site) (line : Text) : Site := { s with around := s.around.told line }

variable {c : Config} {slots : Slots} {s : Site} {format : LineFormat}

/-- Only the setting is asked. -/
theorem asked_withSetting {setting : Setting} (h : setting.env = s.around.setting.env) : s.Asked (s.withSetting setting) :=
  ⟨rfl, h⟩

/-- Asking the setting leaves the lines that are attended to. -/
theorem Asked.attend {s' : Site} (h : s.Asked s') (hs : s.around.Attend format) : s'.around.Attend format := by
  rw [h.around]
  exact ⟨hs.listens, hs.context, hs.stamp⟩

end Site

namespace HostCall

variable {c : Config} {slots : Slots} {s : Site} {format : LineFormat} {call : HostCall}

/-- What becomes of a call on a site that leaves another one behind: an outcome and one line that tells of it, or a fault. -/
def Told (call : HostCall) (format : LineFormat) (s s' : Site) : Prop :=
  (∃ e n line, call.act.perform s = (.ok e, s'.told line) ∧ e.Noted n ∧ line.OneLine ∧
    n.ToldBy s.around.stamp s.around.journal.context.fields format line) ∨
  ∃ f, call.act.perform s = (.error f, s')

/-- A call that is taken is applied, and that is told. -/
theorem told_of_asked (h : s.OnMemory c slots) (hs : s.around.Attend format) {m : Method} {ns : List Nat}
    (hasked : call.asked s.around.setting.load.1 = .ok (m, ns)) :
    ∃ s' slots', s'.OnMemory c slots' ∧ s.Asked s' ∧ call.Told format s s' := by
  have hwell : s.backend.WellFormed := by
    rw [h.backend]
    exact h.wellFormed
  have hact := act_of_asked hwell hasked
  have hsetting := Site.asked_withSetting (s := s) (Setting.env_admission (.bytes slotKey) s.around.setting)
  have hmemory := h.withSetting (h.given.admission (.bytes slotKey))
  rcases allows_of_asked hasked with ⟨rfl, n, hn, rfl⟩ | ⟨rfl, rfl⟩
  · obtain ⟨line, hlog, hline, htold⟩ := (hsetting.attend hs).applied (by decide : Text.OneLine "set")
    refine ⟨_, _, hmemory.withWord n, ⟨rfl, hsetting.env⟩, .inl ⟨Site.setOutcome, _, line, ?_, .applied .., hline, htold⟩⟩
    rw [hact]
    exact Site.execute_set_logged rfl (h.setWord_perform hn) hlog
  · obtain ⟨line, hlog, hline, htold⟩ := (hsetting.attend hs).applied (by decide : Text.OneLine "get")
    refine ⟨_, _, hmemory, hsetting, .inl ⟨Site.getOutcome slots.word, _, line, ?_, .applied .., hline, htold⟩⟩
    have hreturn := Site.returnData_getter (Site.lt_of_getWord h.getWord_perform)
    rw [hact, List.map_nil, Site.execute_get_logged (m := Manifest.getter) rfl h.getWord_perform hlog, hreturn]
    rfl

/-- A call that is not taken is rejected, and that is told, or else its fault goes through. -/
theorem told_of_refused (h : s.OnMemory c slots) (hs : s.around.Attend format) {f : Fault}
    (hasked : call.asked s.around.setting.load.1 = .error f) :
    ∃ s' slots', s'.OnMemory c slots' ∧ s.Asked s' ∧ call.Told format s s' := by
  have hstart : s.Asked (call.start s) ∧ (call.start s).OnMemory c slots := by
    cases call with
    | named name args => exact ⟨⟨rfl, rfl⟩, h⟩
    | raw data => exact ⟨Site.asked_withSetting (Setting.env_load _), h.withSetting h.given.load⟩
  refine ⟨call.start s, slots, hstart.2, hstart.1, ?_⟩
  have hact : call.act.perform s = (Site.carryOut call.function (.error f)).perform (call.start s) := by
    rw [act_perform, hasked]
  by_cases habout : f.aboutValue = true
  · obtain ⟨g, rfl⟩ : ∃ g, f = .store g := by
      cases f with
      | store g => exact ⟨g, rfl⟩
      | misuse | file => cases habout
    have hmessage : g.message.OneLine := by
      rw [show s.around.setting.load.1 = .ok c from h.given] at hasked
      exact call.asked_oneLine c _ hasked
    obtain ⟨line, hlog, hline, htold⟩ := (hstart.1.attend hs).rejected hmessage
    have hrefusal : Site.refusal call.function (.store g) = .ok ⟨false, call.function, none, [], some g.report⟩ := if_pos habout
    rw [hstart.1.around] at htold
    refine .inl ⟨_, _, line, ?_, .rejected call.function g.report, hline, htold⟩
    rw [hact, ← hrefusal]
    refine Site.orReject_logged call.function ?_ habout hlog
    rw [Act.perform_bind, Act.perform_ofExcept]
  · have hrefusal : Site.refusal call.function f = .error f := by
      cases f with
      | store g => exact if_neg habout
      | misuse | file => rfl
    refine .inr ⟨f, ?_⟩
    rw [hact, ← hrefusal]
    refine Site.orReject_through call.function ?_ ?_
    · rw [Act.perform_bind, Act.perform_ofExcept]
    · rintro g rfl
      exact Bool.eq_false_of_not_eq_true habout

/-- A call on memory is told in one line if it has an outcome, and else nothing is said; nothing else changes around the host. -/
theorem told_on_memory (h : s.OnMemory c slots) (hs : s.around.Attend format) (call : HostCall) :
    ∃ s' slots', s'.OnMemory c slots' ∧ s.Asked s' ∧ call.Told format s s' := by
  cases hasked : call.asked s.around.setting.load.1 with
  | ok request => exact told_of_asked h hs hasked
  | error f => exact told_of_refused h hs hasked

end HostCall

/-! ## Events one by one -/

/-- A journal that was configured to take everything in a format. -/
def Journal.configured (j : Journal) (format : LineFormat) : Journal :=
  { j with
    level := LogLevel.debug
    handlers := [⟨LogLevel.debug, format, .stream j.streams.length⟩]
    streams := j.streams ++ [[]]
    decisions := [] }

/-- A journal that is configured listens. -/
theorem Journal.listens_configured (j : Journal) (format : LineFormat) : (j.configured format).Listens format := by
  refine ⟨rfl, ?_⟩
  have hcurrent : (j.configured format).current = j.streams.length := by
    simp [Journal.current, Journal.configured]
  rw [hcurrent]
  rfl

/-- A journal that is written to goes on listening. -/
theorem Journal.listens_write {j : Journal} {format : LineFormat} (h : j.Listens format) (index : Nat) (text : Text) :
    (j.write index text).Listens format := by
  have hcurrent : (j.write index text).current = j.current := by
    simp [Journal.current, Journal.write]
  exact ⟨h.level, by rw [hcurrent]; exact h.handlers⟩

/-- Configuring the log to take everything begins a new stream. -/
theorem Surroundings.configureLog_perform (json terminal : Bool) (s : Surroundings) :
    (configureLog (some json) (.text "DEBUG") terminal .none).perform s =
      (.ok (), { s with journal := s.journal.configured (Stretch.format s.setting.env ⟨json, terminal, []⟩) }) := by
  have hnamed : LogLevel.named? (Text.ofString "DEBUG").strip.upper = some LogLevel.debug := by decide +kernel
  have hlevel : LogLevel.ofValue (.text "DEBUG") = .ok (.int LogLevel.debug) := by
    rw [LogLevel.ofValue, hnamed]
    rfl
  have hjson : decideJson s.setting.env (some json) terminal = json := rfl
  unfold configureLog
  simp only [Act.perform_bind, Act.perform_ofExcept, hlevel, Act.perform_get, Act.perform_set, hjson]
  rfl

/-- An event happens at its time. -/
theorem Event.act_perform (e : Event) (s : Site) : e.act.perform s = e.what.act.perform (s.atTime (Clock.text e.time)) := by
  unfold act
  rw [Act.perform_bind, Act.perform_modify]

namespace Happening

/-- Configuring replaces the handlers and answers nothing. -/
theorem configure_perform (json terminal : Bool) (s : Site) :
    (act (.configure json terminal)).perform s = (.ok none, { s with around := { s.around with
      journal := s.around.journal.configured (Stretch.format s.around.setting.env ⟨json, terminal, []⟩) } }) := by
  unfold act
  rw [Act.perform_bind, Site.perform_aroundAct, Surroundings.configureLog_perform]
  rfl

/-- A call answers with what it reports. -/
theorem call_perform (made : HostCall) (s : Site) :
    (act (.call made)).perform s = ((made.act.perform s).1.map some, (made.act.perform s).2) :=
  Act.perform_bind_pure made.act some s

end Happening

/-! ## Runs -/

/-- Changing the last of a list. -/
theorem modify_last {α : Type} (xs : List α) (x : α) (f : α → α) :
    (xs ++ [x]).modify ((xs ++ [x]).length - 1) f = xs ++ [f x] := by
  have hlast : (xs ++ [x]).length - 1 = xs.length := by simp
  rw [hlast, ← Nat.add_zero xs.length]
  exact List.modifyTailIdx_add _ _ _ _

namespace Site

/-- A site that is still on memory under a configuration, and around which the environment, the context and the stamp but for its time
are those that another one started with. -/
structure Keeps (c : Config) (start s : Site) : Prop where
  memory : ∃ slots, s.OnMemory c slots
  env : s.around.setting.env = start.around.setting.env
  context : s.around.journal.context = start.around.journal.context
  process : s.around.stamp.process = start.around.stamp.process
  thread : s.around.stamp.thread = start.around.stamp.thread
  room : s.around.stamp.room = start.around.stamp.room

/-- The history of a run beside what the streams hold: the old streams as they were, then a page for each stretch that tells it. The
journal listens in the format of the last stretch. -/
structure Trail (c : Config) (start : Site) (history : List (Event × Except Fault (Option Envelope))) (s : Site)
    (earlier : List Stretch) (last : Stretch) (pages : List (List Text)) (page : List Text) : Prop where
  keeps : start.Keeps c s
  stretches : Stretch.ofHistory history = earlier ++ [last]
  streams : s.around.journal.streams = start.around.journal.streams ++ (pages ++ [page]).map (·.map Text.ended)
  before : List.Forall₂ (Stretch.ToldBy start.around) earlier pages
  told : last.ToldBy start.around page
  listens : s.around.journal.Listens (last.format start.around.setting.env)
  fits : start.around.journal.context.fields.FitLines (last.format start.around.setting.env)

variable {c : Config} {start s : Site} {history : List (Event × Except Fault (Option Envelope))} {earlier : List Stretch}
  {last : Stretch} {pages : List (List Text)} {page : List Text}

/-- Time passes over what a site keeps. -/
theorem Keeps.atTime (h : start.Keeps c s) (time : Text) : start.Keeps c (s.atTime time) := by
  obtain ⟨slots, hs⟩ := h.memory
  exact ⟨⟨slots, hs.backend, hs.wellFormed, hs.given, hs.room⟩, h.env, h.context, h.process, h.thread, h.room⟩

/-- A journal with the same context is kept. -/
theorem Keeps.withJournal (h : start.Keeps c s) {journal : Journal} (hcontext : journal.context = s.around.journal.context) :
    start.Keeps c { s with around := { s.around with journal } } := by
  obtain ⟨slots, hs⟩ := h.memory
  exact ⟨⟨slots, hs.backend, hs.wellFormed, hs.given, hs.room⟩, h.env, hcontext.trans h.context, h.process, h.thread, h.room⟩

/-- The stamp of a site differs from that of the first by the time only. -/
theorem Keeps.stamp (h : start.Keeps c s) (time : Text) : (s.atTime time).around.stamp = (start.around.atTime time).stamp := by
  simp only [Site.atTime, Surroundings.atTime, h.process, h.thread, h.room]

/-- A site that asked its setting is kept. -/
theorem Keeps.asked (h : start.Keeps c s) {s' : Site} {slots : Slots} (hs' : s'.OnMemory c slots) (hasked : s.Asked s') :
    start.Keeps c s' := by
  refine ⟨⟨slots, hs'⟩, hasked.env.trans h.env, ?_, ?_, ?_, ?_⟩ <;> rw [hasked.around]
  · exact h.context
  · exact h.process
  · exact h.thread
  · exact h.room

/-- Configuring the log begins a stretch and a page, both empty. -/
theorem trail_configure (hkeeps : start.Keeps c s) (hstretches : Stretch.ofHistory history = earlier)
    (hstreams : s.around.journal.streams = start.around.journal.streams ++ pages.map (·.map Text.ended))
    (hbefore : List.Forall₂ (Stretch.ToldBy start.around) earlier pages) (time : Int) (json terminal : Bool)
    (hfits : start.around.journal.context.fields.FitLines (Stretch.format start.around.setting.env ⟨json, terminal, []⟩)) :
    let e : Event := ⟨time, .configure json terminal⟩
    Trail c start (history ++ [(e, (e.act.perform s).1)]) (e.act.perform s).2 earlier ⟨json, terminal, []⟩ pages [] := by
  intro e
  have hperform : e.act.perform s = _ := (e.act_perform s).trans (Happening.configure_perform json terminal _)
  rw [hperform]
  -- The text of the time is not looked into.
  generalize Text.ofString (Clock.text e.time) = shown
  have hshown := hkeeps.atTime shown
  constructor
  case keeps => exact hshown.withJournal rfl
  case stretches =>
    rw [Stretch.ofHistory_snoc, hstretches]
    rfl
  case streams =>
    change s.around.journal.streams ++ [[]] = _
    rw [hstreams, List.map_append, List.append_assoc]
    rfl
  case before => exact hbefore
  case told => exact .nil
  case listens =>
    rw [← hshown.env]
    exact Journal.listens_configured _ _
  case fits => exact hfits

/-- At the end of a trail the lines of the last format are attended to. -/
theorem Trail.attend (h : Trail c start history s earlier last pages page)
    (hstart : start.around.stamp.process < 2 ^ 64 ∧ start.around.stamp.thread < 2 ^ 64) {time : Text} (htime : time.OneLine) :
    (s.atTime time).around.Attend (last.format start.around.setting.env) := by
  refine ⟨h.listens, ?_, ?_⟩
  · rw [(h.keeps.atTime time).context]
    exact h.fits
  · rw [h.keeps.stamp time]
    exact ⟨htime, hstart.1, hstart.2⟩

/-- A call adds its outcome to the last stretch and a line that tells of it to the last page, or neither if it has none. -/
theorem Trail.call (h : Trail c start history s earlier last pages page)
    (hstart : start.around.stamp.process < 2 ^ 64 ∧ start.around.stamp.thread < 2 ^ 64) (time : Int) (made : HostCall) :
    let e : Event := ⟨time, .call made⟩
    ∃ last' page', Trail c start (history ++ [(e, (e.act.perform s).1)]) (e.act.perform s).2 earlier last' pages page' := by
  intro e
  obtain ⟨shown, hshown⟩ : ∃ shown, shown = Text.ofString (Clock.text time) := ⟨_, rfl⟩
  have hline : shown.OneLine := by
    rw [hshown]
    exact Clock.oneLine_text time
  have hact : e.act.perform s = ((made.act.perform (s.atTime shown)).1.map some, (made.act.perform (s.atTime shown)).2) := by
    rw [hshown]
    exact (e.act_perform s).trans (Happening.call_perform made _)
  have hkeeps := h.keeps.atTime shown
  obtain ⟨slots, hs⟩ := hkeeps.memory
  obtain ⟨s', slots', hs', hasked, hcases⟩ := HostCall.told_on_memory hs (h.attend hstart hline) made
  have hkeeps' := hkeeps.asked hs' hasked
  have hjournal : s'.around.journal = s.around.journal := by
    rw [hasked.around]
    rfl
  rw [hact]
  rcases hcases with ⟨outcome, n, line, hperform, hnoted, hline, htold⟩ | ⟨f, hperform⟩
  · rw [hperform]
    refine ⟨last.noting time outcome, page ++ [line], ?_⟩
    rw [h.keeps.stamp shown, hkeeps.context, hshown] at htold
    constructor
    case keeps => exact hkeeps'.withJournal rfl
    case stretches =>
      rw [Stretch.ofHistory_snoc, h.stretches]
      exact modify_last earlier last _
    case streams =>
      change s'.around.journal.streams.modify (s'.around.journal.streams.length - 1) (· ++ [line.ended]) = _
      rw [hjournal, h.streams, List.map_append, List.map_append, ← List.append_assoc, ← List.append_assoc]
      refine (modify_last _ _ _).trans ?_
      simp only [List.map_cons, List.map_nil, List.map_append]
    case before => exact h.before
    case told => exact List.rel_append h.told (.cons ⟨hline, n, hnoted, htold⟩ .nil)
    case listens =>
      refine Journal.listens_write ?_ _ _
      rw [hjournal]
      exact h.listens
    case fits => exact h.fits
  · rw [hperform]
    refine ⟨last, page, ?_⟩
    constructor
    case keeps => exact hkeeps'
    case stretches =>
      rw [Stretch.ofHistory_snoc]
      exact h.stretches
    case streams =>
      rw [hjournal]
      exact h.streams
    case before => exact h.before
    case told => exact h.told
    case listens =>
      rw [hjournal]
      exact h.listens
    case fits => exact h.fits

/-- However often the log is configured and whatever calls are made, the streams tell the history. -/
theorem trail_run (hkeeps : start.Keeps c start)
    (hstart : start.around.stamp.process < 2 ^ 64 ∧ start.around.stamp.thread < 2 ^ 64) (time : Int) (json terminal : Bool)
    (rest : List Event) (hfits : ∀ e ∈ (⟨time, .configure json terminal⟩ :: rest : List Event), ∀ json terminal,
      e.what = .configure json terminal →
        start.around.journal.context.fields.FitLines (Stretch.format start.around.setting.env ⟨json, terminal, []⟩)) :
    let run := Act.runAll Event.act (⟨time, .configure json terminal⟩ :: rest) start
    ∃ earlier last pages page, Trail c start run.1 run.2 earlier last pages page := by
  induction rest using List.reverseRecOn with
  | nil =>
    have hfirst := hfits _ List.mem_cons_self json terminal rfl
    have hstreams : start.around.journal.streams = start.around.journal.streams ++ ([] : List (List Text)).map (·.map Text.ended) :=
      (List.append_nil _).symm
    have hempty : Stretch.ofHistory [] = [] := rfl
    exact ⟨[], _, [], [], trail_configure hkeeps hempty hstreams .nil time json terminal hfirst⟩
  | append_singleton rest e ih =>
    have hmem : ∀ e' ∈ (⟨time, .configure json terminal⟩ :: rest : List Event),
        e' ∈ (⟨time, .configure json terminal⟩ :: (rest ++ [e]) : List Event) := by
      intro e' he'
      exact List.mem_append_left [e] he'
    obtain ⟨earlier, last, pages, page, h⟩ := ih fun e' he' => hfits e' (hmem e' he')
    rw [← List.cons_append, Act.runAll_snoc]
    obtain ⟨time', what⟩ := e
    cases what with
    | configure json' terminal' =>
      have hlast := hfits ⟨time', .configure json' terminal'⟩ (by simp) json' terminal' rfl
      have hbefore := List.rel_append h.before (.cons h.told .nil)
      exact ⟨_, _, _, _, trail_configure h.keeps h.stretches h.streams hbefore time' json' terminal' hlast⟩
    | call made =>
      obtain ⟨last', page', h'⟩ := h.call hstart time' made
      exact ⟨_, _, _, _, h'⟩

end Site

/-! ## Pages -/

/-- A text is cut at the first separator. -/
theorem Text.pieces_append_cons {separator : Nat} {front : List Nat} (h : separator ∉ front) (rest : List Nat) :
    pieces separator (front ++ separator :: rest) = front :: pieces separator rest := by
  induction front with
  | nil => rw [List.nil_append, pieces, if_pos rfl]
  | cons code front ih =>
    rw [List.cons_append, pieces, if_neg (Ne.symm (List.ne_of_not_mem_cons h)), ih (List.not_mem_of_not_mem_cons h)]

/-- Lines that were written one after another come apart again, since none of them holds a line feed. -/
theorem Text.split_ended {page : List Text} (h : ∀ line ∈ page, line.OneLine) :
    Text.split '\n' ⟨(page.map Text.ended).flatMap Text.codes⟩ = page ++ [Text.empty] := by
  induction page with
  | nil => rfl
  | cons line page ih =>
    obtain ⟨hline, hpage⟩ := List.forall_mem_cons.mp h
    have hcodes : ((line :: page).map Text.ended).flatMap Text.codes =
        line.codes ++ '\n'.toNat :: (page.map Text.ended).flatMap Text.codes := by
      rw [List.map_cons, List.flatMap_cons]
      exact List.append_assoc line.codes _ _
    rw [hcodes, Text.split, Text.pieces_append_cons hline.1, List.map_cons, List.cons_append, ← ih hpage]
    rfl

/-- A page that tells a stretch consists of single lines. -/
theorem Stretch.ToldBy.oneLine {around : Surroundings} {t : Stretch} {page : List Text} (h : t.ToldBy around page) :
    ∀ line ∈ page, line.OneLine := by
  intro line hline
  obtain ⟨i, hi, rfl⟩ := List.mem_iff_getElem.mp hline
  exact (h.get (h.length_eq ▸ hi) hi).1

/-- Pages have as many lines as their stretches have outcomes. -/
theorem Stretch.lengths_of_told {around : Surroundings} {ts : List Stretch} {pages : List (List Text)}
    (h : List.Forall₂ (ToldBy around) ts pages) : pages.map List.length = ts.map (·.outcomes.length) := by
  induction h with
  | nil => rfl
  | cons htold _ ih => rw [List.map_cons, List.map_cons, ih, htold.length_eq]

/-- The log of a host is an audit trail. From whatever a journal held, once it is configured to take everything and however often it
is configured so again, in text or in JSON, the old streams stay as they were and there is one new stream for each configuration. It
holds one line for each outcome of the calls that were made until the next configuration, in their order: a debug line with the
function's name for a call that was applied, a warning with the reason and its code for one that was rejected; and a call that fails
adds none. No line holds a line feed or a carriage return, whatever names, arguments and bytes the calls came with, so that what was
written to a stream falls into just these lines. The context may have values under three names, which have to fit a line. -/
theorem host_log_is_audit_trail (c : Config) (slots : Slots) (given : LogContext) (s : Site) (time : Int) (json terminal : Bool)
    (rest : List Event) (memory : s.backend = .memory slots) (reachable : s.backend.Reachable)
    (configured : s.around.setting.Gives c) (room : wordBytes ≤ c.maxKeyBytes)
    (bound : LogContext.Bound given s.around.journal.context)
    (names : ∀ k ∈ s.around.journal.context.fields.keys, k ∈ Notice.contextKeys)
    (values : ∀ e ∈ (⟨time, .configure json terminal⟩ :: rest : List Event), ∀ json terminal,
      e.what = .configure json terminal → ∀ f ∈ s.around.journal.context.fields,
        f.2.FitsLine (Stretch.format s.around.setting.env ⟨json, terminal, []⟩))
    (process : s.around.stamp.process < 2 ^ 64) (thread : s.around.stamp.thread < 2 ^ 64) :
    let run := Act.runAll Event.act (⟨time, .configure json terminal⟩ :: rest) s
    ∃ pages : List (List Text),
      run.2.around.journal.streams = s.around.journal.streams ++ pages.map (·.map Text.ended) ∧
      List.Forall₂ (Stretch.ToldBy s.around) (Stretch.ofHistory run.1) pages ∧
      ∀ i page, pages[i]? = some page →
        (run.2.around.journal.written (s.around.journal.streams.length + i)).split '\n' = page ++ [Text.empty] := by
  intro run
  have hwell := reachable.wellFormed
  rw [memory] at hwell
  have hkeeps : s.Keeps c s := ⟨⟨slots, memory, hwell, configured, room⟩, rfl, rfl, rfl, rfl, rfl⟩
  obtain ⟨earlier, last, pages, page, h⟩ := Site.trail_run hkeeps ⟨process, thread⟩ time json terminal rest
    fun e he json terminal hwhat => ⟨bound.shows.1.2, names, values e he json terminal hwhat⟩
  have htold : List.Forall₂ (Stretch.ToldBy s.around) (Stretch.ofHistory run.1) (pages ++ [page]) := by
    rw [h.stretches]
    exact List.rel_append h.before (.cons h.told .nil)
  refine ⟨pages ++ [page], h.streams, htold, fun i p hp => ?_⟩
  have hlines : ∀ line ∈ p, line.OneLine := by
    obtain ⟨hi, rfl⟩ := List.getElem?_eq_some_iff.mp hp
    exact (htold.get (htold.length_eq ▸ hi) hi).oneLine
  have hstream : run.2.around.journal.streams.getD (s.around.journal.streams.length + i) [] = p.map Text.ended := by
    rw [h.streams, List.getD_eq_getElem?_getD, List.getElem?_append_right (Nat.le_add_right _ _), Nat.add_sub_cancel_left,
      List.getElem?_map, hp]
    rfl
  rw [Journal.written, hstream]
  exact Text.split_ended hlines

/-- The law at a host whose log takes text on a terminal and then JSON, with a trace id and a state bound: a name and an argument of
two lines are rejected, the second after the log was configured again, and then a word is set. -/
theorem host_log_is_audit_trail_for_broken_names :
    let c : Config := ⟨none, "WARNING", none, 1024, 64⟩
    let around : Surroundings := {
      setting := ⟨[], some c⟩
      files := ⟨[]⟩
      medium := .sound "/work" "temporal"
      journal := { Journal.fresh with
        context := ⟨[("trace_id", .text "t"), ("state", .list [.text "a\nb", .int 7])], []⟩, streams := [["old"]] }
      stamp := ⟨"", 1, 2, 4096⟩ }
    let s : Site := ⟨around, .newMemory⟩
    let rest : List Event := [⟨1, .call (.named "set\nget" [])⟩, ⟨2, .configure true false⟩,
      ⟨3, .call (.named "set" [.text "1\r\n2"])⟩, ⟨4, .call (.named "set" [.int 5])⟩]
    let run := Act.runAll Event.act (⟨0, .configure false true⟩ :: rest) s
    s.backend.Reachable ∧ (∀ f ∈ around.journal.context.fields, ∀ format, f.2.FitsLine format) ∧
      ∃ first second : List Text,
        run.2.around.journal.streams = around.journal.streams ++ [first.map Text.ended, second.map Text.ended] ∧
        (run.2.around.journal.written 1).split '\n' = first ++ [Text.empty] ∧ first.length = 1 ∧
        (run.2.around.journal.written 2).split '\n' = second ++ [Text.empty] ∧ second.length = 2 := by
  intro c around s rest
  have hreachable : s.backend.Reachable := .memory
  have hbind : LogContext.empty.bind around.journal.context.fields = .ok around.journal.context := rfl
  have hfits : ∀ f ∈ around.journal.context.fields, ∀ format, f.2.FitsLine format := by
    have hjson : ∀ f ∈ around.journal.context.fields, f.2.hasJson = true := by decide +kernel
    have hid : (Value.text "t").plain? = some (.ofString "t") := rfl
    have hstate : (Value.list [.text "a\nb", .int 7]).plain? = some (.ofString "['a\\nb', 7]") := by decide +kernel
    intro f hf format
    cases format with
    | json => exact hjson f hf
    | text colour =>
      rcases List.mem_pair.mp hf with rfl | rfl
      · exact ⟨_, hid, by decide⟩
      · exact ⟨_, hstate, by decide⟩
  have hlaw := host_log_is_audit_trail c [] _ s 0 false true rest rfl hreachable rfl (by decide) (.bind .empty hbind) (by decide)
    (fun _ _ _ _ _ f hf => hfits f hf _) (by decide) (by decide)
  have houtcomes : (Stretch.ofHistory (Act.runAll Event.act (⟨0, .configure false true⟩ :: rest) s).1).map (·.outcomes.length) =
      [1, 2] := by decide +kernel
  -- What the run is has been said, and it is not to be evaluated again.
  generalize Act.runAll Event.act (⟨0, .configure false true⟩ :: rest) s = run at hlaw houtcomes ⊢
  obtain ⟨pages, hstreams, htold, hsplit⟩ := hlaw
  rw [← Stretch.lengths_of_told htold] at houtcomes
  obtain ⟨first, later, rfl, hfirst, hlater⟩ := List.map_eq_cons_iff.mp houtcomes
  obtain ⟨second, none, rfl, hsecond, hnone⟩ := List.map_eq_cons_iff.mp hlater
  obtain rfl := List.map_eq_nil_iff.mp hnone
  exact ⟨hreachable, hfits, first, second, hstreams, hsplit 0 first rfl, hfirst, hsplit 1 second rfl, hsecond⟩

/-- A context may hold a list with a number of more digits than can be written; the outcome of a call then leaves no line. -/
theorem outcome_without_line :
    let c : Config := ⟨none, "WARNING", none, 1024, 64⟩
    let value : Value := .list [.int (10 ^ maxDecimalDigits : Nat)]
    let around : Surroundings := {
      setting := ⟨[], some c⟩
      files := ⟨[]⟩
      medium := .sound "/work" "temporal"
      journal := { Journal.fresh with context := ⟨[("state", value)], []⟩ }
      stamp := ⟨"", 1, 2, 4096⟩ }
    let s : Site := ⟨around, .newMemory⟩
    let run := Act.runAll Event.act [⟨0, .configure true false⟩, ⟨1, .call (.named "get" [])⟩] s
    s.backend.Reachable ∧ LogContext.Bound around.journal.context around.journal.context ∧
      run.1.map (fun entry => entry.2.toOption.map (Option.map Envelope.ok)) = [some none, some (some true)] ∧
      run.2.around.journal.streams = [[]] := by
  intro c value around s run
  have hbind : LogContext.empty.bind around.journal.context.fields = .ok around.journal.context := rfl
  exact ⟨.memory, .bind .empty hbind, by decide +kernel, by decide +kernel⟩

end WordSlot
