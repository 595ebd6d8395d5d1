import WordSlot.Proofs.Rejection
import WordSlot.Proofs.Reporting

/-!
# Command lines as a register

Every command line runs in a process of its own, and of what it does only the state file lasts. `Registers` says that the file at
the state path holds the word of the write accepted last, or is not there yet. A command that gets the word, sets it or makes a
call keeps that up, prints what it should and exits accordingly, and the law for any number of runs follows by induction.
-/

namespace WordSlot

open Outcome

/-! ## The slot in a file -/

/-- The slots after a write was accepted: the word under the slot's key, and nothing else; no slots before any was. -/
def lastSlots : Option Nat → Slots
  | none => []
  | some n => [(slotKey, Bytes.ofNat wordBytes n)]

theorem lastSlots_put (last? : Option Nat) (n : Nat) :
    (lastSlots last?).put slotKey (Bytes.ofNat wordBytes n) = lastSlots (some n) := by
  cases last? with
  | none => rfl
  | some m => rw [lastSlots, Slots.put, if_pos rfl, lastSlots]

/-- Well-formed slots that are the same as a single one are that one. -/
theorem Slots.WellFormed.eq_singleton {held : Slots} (hwf : held.WellFormed) {k w : Bytes} (h : held.Same [(k, w)]) :
    held = [(k, w)] := by
  have hmem : ∀ e ∈ held, e = (k, w) := by
    rintro ⟨k', w'⟩ he
    have hget := (h k').symm.trans ((lookup_eq_some_iff_mem hwf.nodup).mpr he)
    rw [get?_cons] at hget
    split at hget
    · rename_i hk
      cases hget
      rw [hk]
    · nomatch hget
  cases held with
  | nil =>
    have hk := h k
    rw [get?_cons, if_pos rfl] at hk
    nomatch hk
  | cons e rest =>
    obtain rfl := hmem e List.mem_cons_self
    cases rest with
    | nil => rfl
    | cons e' rest =>
      obtain rfl := hmem e' (by simp)
      exact absurd hwf.nodup (by simp)

/-- The file at a path registers the write accepted last: it holds the word, or is not there if there was none. It can be written
on the medium. -/
structure FileTree.Registers (medium : Medium) (path : Path) (last? : Option Nat) (t : FileTree) : Prop where
  file : t.Stands path (last?.isSome = true) (lastSlots last?)
  writable : t.Writable medium path
  inRange : ∀ n, last? = some n → n < wordLimit

/-- Surroundings of a command on a file that registers the write accepted last. The configuration has room for the slot's key, and
the journal goes to the console alone. -/
structure Surroundings.Registers (c : Config) (path : Path) (last? : Option Nat) (s : Surroundings) : Prop where
  sound : path.flaw? = none
  files : s.files.Registers s.medium path last?
  given : s.setting.Gives c
  room : wordBytes ≤ c.maxKeyBytes
  streams : ∀ h ∈ s.journal.handlers, ∀ p, h.sink ≠ .file p

namespace Surroundings

variable {c : Config} {path : Path} {last? : Option Nat} {s s' : Surroundings}

theorem Registers.carries (h : s.Registers c path last?) : s.Carries path (last?.isSome = true) (lastSlots last?) :=
  ⟨h.sound, h.files.file, h.files.writable, fun handler hmem p hp => absurd hp (h.streams handler hmem p)⟩

/-- The slot's key is admitted. -/
theorem Registers.admission (h : s.Registers c path last?) : (admission (.bytes slotKey) s.setting).1 = .ok slotKey :=
  admission_bytes h.given (by decide) (by rw [slotKey, Bytes.length_ofNat]; exact h.room)

/-- A backend that is opened on the file gets the word written last, zero if there was none. -/
theorem Registers.getWord (h : s.Registers c path last?) :
    ∃ lines s', Site.getWord.perform ⟨s, .newFile path⟩ = (.ok (last?.getD 0), s') ∧
      ({ s with setting := (WordSlot.admission (.bytes slotKey) s.setting).2 } : Surroundings).Logged lines s'.around := by
  have hget := Carries.getSlot (s := ⟨s, .newFile path⟩) h.carries rfl nofun (.bytes slotKey)
  rw [h.admission] at hget
  obtain ⟨loaded, around, hperform, -, hsame, hl⟩ := hget
  refine ⟨_, ⟨around, .file path (some loaded)⟩, ?_, hl⟩
  rw [Site.getWord, Act.perform_bind, hperform, hsame.found]
  cases last? with
  | none => rfl
  | some n =>
    have hn : n < 256 ^ wordBytes := h.files.inRange n rfl
    simp [lastSlots, Slots.found, Slots.get?, ofWord, Value.toBytes?, Bytes.toNat_ofNat wordBytes n hn]

/-- A backend that is opened on the file sets the word. -/
theorem Registers.setWord (h : s.Registers c path last?) {n : Nat} (hn : n < wordLimit) :
    ∃ s', (Site.setWord (.int n)).perform ⟨s, .newFile path⟩ = (.ok (), s') ∧
      s'.around.files.Registers s.medium path (some n) ∧ ∀ h ∈ s'.around.journal.handlers, ∀ p, h.sink ≠ .file p := by
  have hword : checkValue (.bytes (Bytes.ofNat wordBytes n)) = .ok (Bytes.ofNat wordBytes n) :=
    checkValue_eq_ok_iff.mpr ⟨rfl, by simp⟩
  have hset := Carries.setSlot (s := ⟨s, .newFile path⟩) h.carries rfl nofun (.bytes slotKey)
    (.bytes (Bytes.ofNat wordBytes n))
  rw [h.admission, hword] at hset
  obtain ⟨new, lines, around, files, hperform, -, hsame, hl, hcarries⟩ := hset
  rw [Option.getD_none, lastSlots_put] at hsame
  have hcarries' := (hcarries.of_same hsame).of_iff (show True ↔ (some n).isSome = true by simp)
  refine ⟨_, (Site.setWord_perform hn _).trans hperform, ⟨hcarries'.file, ?_, ?_⟩, ?_⟩
  · have hmedium : around.medium = s.medium := hl.medium
    rw [← hmedium]
    exact hcarries'.writable
  · rintro _ ⟨rfl⟩
    exact hn
  · change ∀ h ∈ around.journal.handlers, ∀ p, h.sink ≠ .file p
    rw [hl.handlers]
    exact h.streams

/-! ## Calls on the file -/

section

variable {call : HostCall}

/-- A call for the word gives it and leaves the files alone. -/
theorem Registers.call_get (h : s.Registers c path last?) (hasked : call.asked s.setting.load.1 = .ok (Manifest.getter, [])) :
    ∃ s', call.act.perform ⟨s, .newFile path⟩ = (.ok (Site.getOutcome (last?.getD 0)), s') ∧ s'.around.files = s.files := by
  obtain ⟨lines, s₁, hget, hl₁⟩ := h.getWord
  obtain ⟨around, hexecute, hl₂⟩ := Site.execute_getter_ok hget
  have hact : call.act.perform ⟨s, .newFile path⟩ = _ := HostCall.act_of_asked (s := ⟨s, .newFile path⟩) nofun hasked
  exact ⟨_, hact.trans hexecute, (hl₁.trans hl₂).files_eq h.streams⟩

/-- A call to set a number sets it. -/
theorem Registers.call_set (h : s.Registers c path last?) {n : Nat}
    (hasked : call.asked s.setting.load.1 = .ok (Manifest.setter, [n])) :
    ∃ s', call.act.perform ⟨s, .newFile path⟩ = (.ok Site.setOutcome, s') ∧
      s'.around.files.Registers s.medium path (some n) := by
  obtain ⟨s₁, hset, hfiles, hstreams⟩ := h.setWord (HostCall.lt_of_asked hasked)
  obtain ⟨around, hexecute, hl⟩ := Site.execute_setter_ok hset
  have hact : call.act.perform ⟨s, .newFile path⟩ = _ := HostCall.act_of_asked (s := ⟨s, .newFile path⟩) nofun hasked
  refine ⟨_, hact.trans hexecute, ?_⟩
  rw [hl.files_eq hstreams]
  exact hfiles

/-- A call that is not taken is rejected and leaves the files alone. -/
theorem Registers.call_rejected (h : s.Registers c path last?) {f : Fault} (hasked : call.asked s.setting.load.1 = .error f)
    (hf : f.Reportable) :
    ∃ g s', call.act.perform ⟨s, .newFile path⟩ = (.ok ⟨false, call.function, none, [], some (StoreFault.report g)⟩, s') ∧
      g.Reportable ∧ s'.around.files = s.files := by
  obtain ⟨g, rfl, habout, hg⟩ := hf
  have hrefusal : Site.refusal call.function (.store g) = .ok ⟨false, call.function, none, [], some g.report⟩ := if_pos habout
  obtain ⟨s', hperform, hrejection⟩ := HostCall.act_of_refused (s := ⟨s, .newFile path⟩) hasked
  obtain ⟨report, -, huntouched⟩ := hrejection _ hrefusal
  rw [hrefusal] at hperform
  exact ⟨g, s', hperform, hg, huntouched.files_eq h.streams⟩

end

end Surroundings

/-! ## Commands -/

namespace Command

variable {s : Surroundings}

theorem perform_errorLine (text : Text) (s : Surroundings) :
    ∃ journal, (errorLine text).perform s = (.ok (), { s with journal }) := ⟨_, rfl⟩

/-- Printing an outcome that has a JSON text: the exit code tells whether the call went well, and the files are left alone. -/
theorem perform_printEnvelope {e : Envelope} {document : String} (h : envelopeText e = .ok document) (json : Bool) (text : Text)
    (s : Surroundings) :
    ∃ journal, (printEnvelope json e text).perform s =
      (.ok ⟨if json then (document ++ "\n" : String) else if e.ok then text else .empty, if e.ok then 0 else 2⟩,
        { s with journal }) := by
  unfold printEnvelope
  cases json with
  | true =>
    refine ⟨s.journal, ?_⟩
    simp only [if_true, h, Act.perform_bind, Act.perform_ofExcept, Act.perform_pure, Bool.not_true, Bool.false_eq_true, if_false]
    cases e.ok <;> rfl
  | false =>
    cases hok : e.ok with
    | true => exact ⟨s.journal, rfl⟩
    | false =>
      obtain ⟨journal, hline⟩ := perform_errorLine ((e.error.map (·.message)).getD "call rejected") s
      refine ⟨journal, ?_⟩
      simp only [Bool.false_eq_true, if_false, Act.perform_bind, Act.perform_pure, Bool.not_false, if_true, hline]

/-- A call that comes back is made on a backend opened at the state path, and its outcome is printed. -/
theorem perform_dispatch {p path : Path} (hpath : s.setting.env.expand p = .ok path) {act : Act Site Envelope} {e : Envelope}
    {site : Site} (h : act.perform ⟨s, .newFile path⟩ = (.ok e, site)) (asJson : Bool)
    (print : Envelope → Act Surroundings Printed) :
    (dispatch ⟨some p, asJson⟩ act print).perform s = (print e).perform site.around := by
  have hopen : (Surroundings.openBackend (.path p)).perform s = (.ok (.newFile path), s) := by
    simp only [Surroundings.openBackend, Surroundings.openFile, Surroundings.expand, Surroundings.pathOf, Value.holds, if_true,
      Act.perform_bind, Act.perform_pure, Act.perform_get, Act.perform_ofExcept, pure_eq_ok, hpath]
  simp only [dispatch, Act.perform_bind, Act.perform_tryCatch, hopen, Act.perform_mk, h, Act.perform_pure]

/-- Setting up a run: the configuration is read, and the journal goes to a console of its own. -/
theorem perform_prepare {c : Config} (hc : s.setting.load.1 = .ok c) (state : Text) (json : Bool) (level : Option Text) :
    ∃ journal, (prepare ⟨some state, json, level, false⟩).perform s =
        (.ok ⟨some (Path.ofText state), json⟩, { s with setting := s.setting.load.2, journal }) ∧
      ∀ h ∈ journal.handlers, ∀ p, h.sink ≠ .file p := by
  have hconfig : Surroundings.config.perform s = (.ok c, { s with setting := s.setting.load.2 }) := by
    rw [← hc]
    rfl
  unfold prepare
  rw [Act.perform_bind, Act.perform_get]
  dsimp only
  rw [Act.perform_bind, hconfig]
  -- With the configuration at hand the rest is computed: the level is a text, and no file is asked for.
  refine ⟨_, rfl, ?_⟩
  simp

/-- A state path that can be asked for passes the check. -/
theorem perform_checkState {state : Text} (h : (Path.ofText state).flaw? = none) (json : Bool) (level : Option Text)
    (s : Surroundings) : (checkState ⟨some state, json, level, false⟩).perform s = (.ok (), s) := by
  have hgiven : givenState ⟨some state, json, level, false⟩ s.setting.env = some (Path.ofText state) := rfl
  simp only [checkState, Act.perform_bind, Act.perform_get, hgiven, Surroundings.askable, h, Act.perform_pure]

theorem run_of_fresh {words : List Text} {result : Except Fault Outcome} {after : Surroundings}
    (h : (runFresh words).perform { s with setting := s.setting.forget, journal := .fresh } = (result, after)) :
    run words s = (result, { s with files := after.files }) := by
  rw [run, h]

/-! ### Calls from the command line -/

section

variable {c : Config} {path p : Path} {last? : Option Nat} {call : HostCall}

/-- A call for the word prints it and exits with 0. -/
theorem dispatch_get (h : s.Registers c path last?) (hpath : s.setting.env.expand p = .ok path)
    (hasked : call.asked s.setting.load.1 = .ok (Manifest.getter, [])) (asJson : Bool) (json : Envelope → Bool)
    (text : Envelope → Text) :
    ∃ document after, envelopeText (Site.getOutcome (last?.getD 0)) = .ok document ∧
      (dispatch ⟨some p, asJson⟩ call.act fun e => printEnvelope (json e) e (text e)).perform s =
        (.ok ⟨if json (Site.getOutcome (last?.getD 0)) then (document ++ "\n" : String)
          else text (Site.getOutcome (last?.getD 0)), 0⟩, after) ∧ after.files = s.files := by
  obtain ⟨site, hcall, hfiles⟩ := h.call_get hasked
  have hword : last?.getD 0 < wordLimit := by
    cases hlast : last? with
    | none => decide
    | some n => exact h.files.inRange n hlast
  obtain ⟨document, hdocument⟩ : ∃ document, envelopeText (Site.getOutcome (last?.getD 0)) = .ok document :=
    envelopeText_ok (.inr ⟨_, rfl⟩) (by rintro _ ⟨rfl⟩; exact hword) nofun
  obtain ⟨journal, hprint⟩ := perform_printEnvelope hdocument (json (Site.getOutcome (last?.getD 0)))
    (text (Site.getOutcome (last?.getD 0))) site.around
  exact ⟨document, _, hdocument, (perform_dispatch hpath hcall asJson _).trans hprint, hfiles⟩

/-- A call to set a number exits with 0, and the number is the one written last. -/
theorem dispatch_set (h : s.Registers c path last?) (hpath : s.setting.env.expand p = .ok path) {n : Nat}
    (hasked : call.asked s.setting.load.1 = .ok (Manifest.setter, [n])) (asJson : Bool) (json : Envelope → Bool)
    (text : Envelope → Text) :
    ∃ output after, (dispatch ⟨some p, asJson⟩ call.act fun e => printEnvelope (json e) e (text e)).perform s =
        (.ok ⟨output, 0⟩, after) ∧ after.files.Registers s.medium path (some n) := by
  obtain ⟨site, hcall, hfiles⟩ := h.call_set hasked
  obtain ⟨document, hdocument⟩ : ∃ document, envelopeText Site.setOutcome = .ok document :=
    envelopeText_ok (.inr ⟨_, rfl⟩) nofun nofun
  obtain ⟨journal, hprint⟩ := perform_printEnvelope hdocument (json Site.setOutcome) (text Site.setOutcome) site.around
  exact ⟨_, _, (perform_dispatch hpath hcall asJson _).trans hprint, hfiles⟩

/-- A call that is not taken exits with 2 and leaves the files alone. -/
theorem dispatch_rejected (h : s.Registers c path last?) (hpath : s.setting.env.expand p = .ok path) {f : Fault}
    (hasked : call.asked s.setting.load.1 = .error f) (hf : f.Reportable) (asJson : Bool) (json : Envelope → Bool)
    (text : Envelope → Text) :
    ∃ output after, (dispatch ⟨some p, asJson⟩ call.act fun e => printEnvelope (json e) e (text e)).perform s =
        (.ok ⟨output, 2⟩, after) ∧ after.files = s.files := by
  obtain ⟨g, site, hcall, hg, hfiles⟩ := h.call_rejected hasked hf
  have hfunction : call.function = .none ∨ ∃ t, call.function = .text t := by
    cases call with
    | named name args => exact .inr ⟨name, rfl⟩
    | raw data => exact .inl rfl
  obtain ⟨document, hdocument⟩ := envelopeText_ok (e := ⟨false, call.function, none, [], some g.report⟩) hfunction nofun
    (by rintro _ ⟨rfl⟩; exact hg.writes)
  obtain ⟨journal, hprint⟩ := perform_printEnvelope hdocument (json ⟨false, call.function, none, [], some g.report⟩)
    (text ⟨false, call.function, none, [], some g.report⟩) site.around
  exact ⟨_, _, (perform_dispatch hpath hcall asJson _).trans hprint, hfiles⟩

end

end Command

/-! ## Requests -/

/-- What a command line asks for. -/
inductive Request where
  | get
  | set (value : Text)
  | call (hex : Text)
  | abi
  | info

namespace Request

/-- The command of a request. -/
def command : Request → CommandName
  | .get => .get
  | .set _ => .set
  | .call _ => .call
  | .abi => .abi
  | .info => .info

/-- The word for the command. -/
def word : Request → Text
  | .get => "get"
  | .set _ => "set"
  | .call _ => "call"
  | .abi => "abi"
  | .info => "info"

/-- The arguments of the command. -/
def arguments : Request → List Text
  | .set word | .call word => [word]
  | _ => []

/-- Text spells bytes in hex: pairs of digits with blanks about them, behind `0x` or `0X` or behind no mark at all. -/
def Spells (hex : Text) (data : Bytes) : Prop :=
  ∃ digits : List Char, readHex digits = some data ∧
    (hex = .ofChars digits ∨ hex = .ofChars ('0' :: 'x' :: digits) ∨ hex = .ofChars ('0' :: 'X' :: digits))

/-- The digits of hex text, which stand behind the mark if there is one. -/
def digits : List Char → List Char
  | '0' :: 'x' :: cs => cs
  | '0' :: 'X' :: cs => cs
  | cs => cs

/-- The bytes that a text spells in hex. -/
def calldata? (hex : Text) : Option Bytes := hex.chars?.bind fun cs => readHex (digits cs)

/-- The call that a request makes. -/
def call? : Request → Option HostCall
  | .get => some (.named "get" [])
  | .set value => some (.named "set" [.text value])
  | .call hex => (calldata? hex).map .raw
  | .abi | .info => none

/-- The number that a request is to write. -/
def written? (most : Nat) (r : Request) : Option Nat := r.call?.bind fun call => call.operation.written? most

/-- Whether the outcome of a request is printed as JSON. -/
def showsJson (json : Bool) (r : Request) (e : Envelope) : Bool :=
  match r with
  | .call _ => json || e.ok
  | _ => json

/-- What is printed if a request went well and JSON was not asked for. -/
def text (r : Request) (e : Envelope) : Text :=
  match r with
  | .get => Command.returnedText e
  | .set _ => "ok\n"
  | _ => ""

/-! ### Hex text -/

section

variable {hex : Text} {data : Bytes}

/-- The mark of hex text is no pair of digits, so that text which is read without a mark has none. -/
theorem digits_of_readHex {cs : List Char} (h : readHex cs = some data) : digits cs = cs := by
  unfold digits
  split
  · nomatch h
  · nomatch h
  · rfl

/-- Bytes are read off a text exactly if it spells them. -/
theorem calldata?_eq_some_iff : calldata? hex = some data ↔ Spells hex data := by
  unfold calldata? Spells
  simp only [Option.bind_eq_some_iff, Text.chars?_eq_some_iff]
  constructor
  · rintro ⟨cs, rfl, hread⟩
    refine ⟨digits cs, hread, ?_⟩
    unfold digits
    split
    · exact .inr (.inl rfl)
    · exact .inr (.inr rfl)
    · exact .inl rfl
  · rintro ⟨cs, hread, rfl | rfl | rfl⟩
    · exact ⟨cs, rfl, (congrArg readHex (digits_of_readHex hread)).trans hread⟩
    · exact ⟨_, rfl, hread⟩
    · exact ⟨_, rfl, hread⟩

/-- Without its mark, a text has just its digits. -/
theorem unmarked_ofChars (cs : List Char) : Command.unmarked (.ofChars cs) = .ofChars (digits cs) := by
  have hmark : ∀ (mark : Char) {rest : List Nat}, cs.map Char.toNat = '0'.toNat :: mark.toNat :: rest →
      ∃ behind, cs = '0' :: mark :: behind := by
    intro mark rest h
    obtain ⟨zero, cs', rfl, hzero, h⟩ := List.map_eq_cons_iff.mp h
    obtain ⟨mark', behind, rfl, hmark, -⟩ := List.map_eq_cons_iff.mp h
    exact ⟨behind, by rw [Char.toNat_inj.mp hzero, Char.toNat_inj.mp hmark]⟩
  unfold digits
  split
  · rfl
  · rfl
  · rename_i hsmall hlarge
    unfold Command.unmarked
    split
    · rename_i rest hcodes
      obtain ⟨behind, rfl⟩ := hmark 'x' hcodes
      exact absurd rfl (hsmall behind)
    · rename_i rest hcodes
      obtain ⟨behind, rfl⟩ := hmark 'X' hcodes
      exact absurd rfl (hlarge behind)
    · rfl

/-- The command reads the bytes that a text spells. -/
theorem readHex_unmarked (hex : Text) : (Command.unmarked hex).chars?.bind readHex = calldata? hex := by
  ext data
  rw [calldata?_eq_some_iff, Option.bind_eq_some_iff]
  simp only [Text.chars?_eq_some_iff]
  constructor
  · rintro ⟨cs, hcs, hread⟩
    refine ⟨cs, hread, ?_⟩
    unfold Command.unmarked at hcs
    split at hcs
    · rename_i rest hcodes
      cases hcs
      exact .inr (.inl (congrArg Text.mk hcodes))
    · rename_i rest hcodes
      cases hcs
      exact .inr (.inr (congrArg Text.mk hcodes))
    · exact .inl hcs
  · rintro ⟨cs, hread, rfl | rfl | rfl⟩
    · exact ⟨cs, by rw [unmarked_ofChars, digits_of_readHex hread], hread⟩
    · exact ⟨cs, rfl, hread⟩
    · exact ⟨cs, rfl, hread⟩

end

section

variable {r : Request} {call : HostCall}

/-- A request that makes a call is that call, its outcome printed. -/
theorem runCommand_of_call (h : r.call? = some call) (options : Command.Options) :
    Command.runCommand options r.command r.arguments =
      Command.dispatch options call.act fun e => Command.printEnvelope (r.showsJson options.json e) e (r.text e) := by
  cases r with
  | get | set value =>
    cases h
    rfl
  | call hex =>
    obtain ⟨data, hdata, rfl⟩ := Option.map_eq_some_iff.mp h
    change Command.runCalldata options hex = _
    rw [← readHex_unmarked] at hdata
    simp only [Command.runCalldata, hdata]
    rfl
  | abi | info => cases h

/-- Text that is no hex is refused before any call is made. -/
theorem runCommand_not_hex {hex : Text} (h : calldata? hex = none) (options : Command.Options) (s : Surroundings) :
    ∃ journal, (Command.runCommand options .call [hex]).perform s = (.ok ⟨"", 2⟩, { s with journal }) := by
  obtain ⟨journal, hline⟩ := Command.perform_errorLine "calldata must be hex" s
  refine ⟨journal, ?_⟩
  change (Command.runCalldata options hex).perform s = _
  rw [← readHex_unmarked] at h
  simp only [Command.runCalldata, h, Act.perform_bind, hline, Act.perform_pure]

/-- Documents are printed without a look at the files. -/
theorem files_runCommand_document (h : r = .abi ∨ r = .info) (options : Command.Options) (s : Surroundings) :
    ((Command.runCommand options r.command r.arguments).perform s).2.files = s.files := by
  have hprint : ∀ document, (Command.printDocument options document).Keeps (·.files = s.files) :=
    fun document => (Act.keeps_ofExcept _).bind fun _ => Act.keeps_pure _
  have hconfig : Surroundings.config.Keeps (·.files = s.files) := fun _ hs => hs
  rcases h with rfl | rfl
  · have habi : Command.runCommand options abi.command abi.arguments =
        Act.ofExcept Command.abiDocument >>= Command.printDocument options := by
      rw [command, Command.runCommand]
    have hkeeps := (Act.keeps_ofExcept Command.abiDocument).bind hprint
    rw [habi]
    exact hkeeps s rfl
  · exact (hconfig.bind fun config => hprint _) s rfl

theorem asked_get (config : Except Fault Config) :
    HostCall.asked config (.named "get" []) = .ok (Manifest.getter, []) :=
  request_eq_ok_iff.mpr (.inr ⟨rfl, rfl, rfl, rfl⟩)

/-- A text spells no more bytes than it has characters. -/
theorem length_calldata?_le {hex : Text} {data : Bytes} (h : calldata? hex = some data) : data.length ≤ hex.length := by
  obtain ⟨cs, hread, hhex⟩ := calldata?_eq_some_iff.mp h
  have hlen := length_readHex_le hread
  rcases hhex with rfl | rfl | rfl <;>
    · simp only [Text.length, Text.ofChars, List.length_map, List.length_cons]
      omega

/-- A request that is refused is refused for a reason that can be reported. -/
theorem asked_fails (h : r.call? = some call) (countable : ∀ word ∈ r.arguments, word.length < 2 ^ 63) (c : Config) :
    Fails (call.asked (.ok c)) Fault.Reportable := by
  cases r with
  | get =>
    cases h
    rw [asked_get]
    exact fails_ok _
  | set value =>
    cases h
    rw [HostCall.asked, request_set]
    exact ((coerceUInt_text_fails value).imp fun _ => Fault.Rejects.reportable (countable value (by simp [arguments]))).map _
  | call hex =>
    obtain ⟨data, hdata, rfl⟩ := Option.map_eq_some_iff.mp h
    have hhex : hex.length < 2 ^ 63 := countable hex (by simp [arguments])
    have hsize : data.length < 2 ^ 63 := lt_of_le_of_lt (length_calldata?_le hdata) hhex
    exact (Calldata.decode_fails c.maxCalldataBytes data).imp fun _ => Fault.Rejects.reportable hsize
  | abi | info => cases h

end

end Request

/-! ## Runs -/

/-- A command line that names a state path and is read as a request, however its options are spelled and ordered. -/
structure Invocation (state : Text) where
  words : List Text
  request : Request
  json : Bool
  level : Option Text
  rest : List Text
  tail : List Text
  options : CommandLine.readOptions words = .ok (⟨some state, json, level, false⟩, rest)
  command : CommandLine.readCommand rest = .ok (request.command, tail)
  arguments : CommandLine.readArguments request.command tail = .ok request.arguments
  -- A machine can count what it is given. Rejections report sizes, and a number of more than 4300 digits has no text.
  countable : ∀ word ∈ request.arguments, word.length < 2 ^ 63

/-- The exit code of a command line that ended. -/
def Outcome.exit : Outcome → Nat
  | .page _ _ exit => exit
  | .finished exit _ _ => exit

/-- The exit code of a run. -/
def exit? (reply : Except Fault Outcome) : Option Nat := reply.toOption.map Outcome.exit

/-- The fields of an outcome that returns a number, by name. -/
def returnedFields (n : Nat) : Fields :=
  [("error", .none), ("function", .text "get"), ("ok", .bool true), ("return", .int n),
    ("returnData", .text ("0x" ++ hex (Arguments.write [n])))]

theorem readBack_returnedFields (n : Nat) : (Value.record (returnedFields n)).readBack = .record (returnedFields n) := by
  have hnames : (returnedFields n).map (·.1) = (["error", "function", "ok", "return", "returnData"] : List Text) := rfl
  have hnodup : ((returnedFields n).map (·.1)).Nodup := by
    rw [hnames]
    decide
  have hscalar : ∀ name ∈ (returnedFields n).map (·.1), ∀ code ∈ name.codes, Text.isScalar code = true := by
    rw [hnames]
    decide
  have hdata : (Text.ofString "0x" ++ Text.ofString (hex (Arguments.write [n]))).readBack =
      "0x" ++ hex (Arguments.write [n]) := by
    have hcodes : (Text.ofString "0x" ++ Text.ofString (hex (Arguments.write [n]))).codes = markedCodes (Arguments.write [n]) := by
      change [0x30, 0x78] ++ (hex (Arguments.write [n])).toList.map Char.toNat = _
      rw [hex, String.toList_ofList]
      rfl
    exact Text.readBack_of_scalar (hcodes ▸ scalar_markedCodes (Arguments.write [n]))
  rw [Value.readBack_record hnodup (List.forall_mem_map.mp hscalar)]
  simp only [returnedFields, List.map_cons, List.map_nil, Value.readBack, hdata]
  rfl

/-- What is printed of an outcome that returns a number reads as its fields. -/
theorem reads_getOutcome {n : Nat} {text : String} (h : Command.envelopeText (Site.getOutcome n) = .ok text) :
    (∀ c ∈ text.toList, Json.Printable c) ∧
      ∀ room, 0 < room → Json.read room text.toList = .ok (.record (returnedFields n)) := by
  have hsorted : (Site.getOutcome n).document.sortKeys = .record (returnedFields n) :=
    sortKeys_envelopeDocument (Json.sortKeys_bool _) (Json.sortKeys_text _) (Json.sortKeys_int _) Json.sortKeys_none _
  obtain ⟨hprintable, hreads⟩ := reads_envelopeText h
  rw [hsorted, readBack_returnedFields] at hreads
  exact ⟨hprintable, fun room hroom => hreads room hroom⟩

/-- What a command line should come to if `n` is the number written last. A request for the word exits with 0 and prints `n` in
decimal or, as JSON, a line that reads as the outcome of a call which returns `n`. A number to set exits with 0 if it is taken as
a word, calldata if it is hex text, with or without its mark, of at most `most` bytes that decode, and with 2 otherwise. -/
def Request.Answered (most : Nat) (json : Bool) (n : Nat) (reply : Except Fault Outcome) : Request → Prop
  | .get => ∃ line errors, reply = .ok (.finished 0 (line ++ "\n" : String) errors) ∧
      (json = false → line = toString n) ∧
      (json = true → (∀ c ∈ line.toList, Json.Printable c) ∧
        ∀ room, 0 < room → Json.read room line.toList = .ok (.record (returnedFields n)))
  | .set value => exit? reply = some (if (coerceUInt 256 (.text value)).isOk then 0 else 2)
  | .call hex => (exit? reply = some 0 ∨ exit? reply = some 2) ∧ (exit? reply = some 0 ↔
      ∃ data m ns, Spells hex data ∧ Calldata.decode most Manifest.packaged data = .ok (m, ns))
  | .abi | .info => True

/-- Surroundings in which a command line with a state path can run: the configuration can be read and has room for the slot's
key, the path can be asked for, and its file registers the write accepted last. -/
structure Surroundings.Ready (state : Text) (path : Path) (c : Config) (last? : Option Nat) (s : Surroundings) : Prop where
  configured : Config.ofEnvironment s.setting.env = .ok c
  room : wordBytes ≤ c.maxKeyBytes
  askable : (Path.ofText state).flaw? = none
  located : s.setting.env.expand (Path.ofText state) = .ok path
  sound : path.flaw? = none
  files : s.files.Registers s.medium path last?

namespace Invocation

variable {state : Text}

/-- Runs the command line in a process of its own. -/
def act (i : Invocation state) : Act Surroundings Outcome := ExceptT.mk (Command.run i.words)

/-- A command line for a request: the options first, and the arguments after a mark that none of them is read as an option. -/
def ofRequest (state : Text) (request : Request) (json : Bool)
    (countable : ∀ word ∈ request.arguments, word.length < 2 ^ 63) : Invocation state where
  words := "--state" :: state :: ((if json then (["--json"] : List Text) else []) ++ request.word :: "--" :: request.arguments)
  request := request
  json := json
  level := none
  rest := request.word :: "--" :: request.arguments
  tail := "--" :: request.arguments
  options := by cases json <;> cases request <;> rfl
  command := by cases request <;> rfl
  arguments := by cases request <;> rfl
  countable := countable

/-- The number of a write that was accepted. -/
def accepted? (most : Nat) (run : Invocation state × Except Fault Outcome) : Option Nat :=
  if exit? run.2 = some 0 then run.1.request.written? most else none

section

variable {path : Path} {c : Config} {last? : Option Nat} {s : Surroundings}

theorem isEmpty_words (i : Invocation state) : i.words.isEmpty = false := by
  have hoptions := i.options
  cases hwords : i.words with
  | nil =>
    rw [hwords] at hoptions
    nomatch hoptions
  | cons word words => rfl

/-- A run prepares its surroundings and runs the command in them; of what it does the files stay. -/
theorem act_perform (h : s.Ready state path c last?) (i : Invocation state) :
    ∃ start : Surroundings, start.Registers c path last? ∧ start.files = s.files ∧ start.medium = s.medium ∧
      start.setting.env = s.setting.env ∧
      i.act.perform s =
        let run := (Command.runCommand ⟨some (Path.ofText state), i.json⟩ i.request.command i.request.arguments).perform start
        (run.1.map fun printed => .finished printed.exit printed.output (run.2.journal.written run.2.journal.current),
          { s with files := run.2.files }) := by
  have hload : s.setting.forget.load = (.ok c, ⟨s.setting.env, some c⟩) := by
    simp only [Setting.load, Setting.forget, h.configured]
  have hgives : s.setting.forget.Gives c := congrArg Prod.fst hload
  obtain ⟨journal, hprepare, hstreams⟩ := Command.perform_prepare
    (s := { s with setting := s.setting.forget, journal := .fresh }) hgives state i.json i.level
  have hcheck := Command.perform_checkState h.askable i.json i.level
  have hfresh : (Command.runFresh i.words).perform { s with setting := s.setting.forget, journal := .fresh } =
      let run := (Command.runCommand ⟨some (Path.ofText state), i.json⟩ i.request.command i.request.arguments).perform
        { s with setting := s.setting.forget.load.2, journal }
      (run.1.map fun printed => .finished printed.exit printed.output (run.2.journal.written run.2.journal.current), run.2) := by
    simp only [Command.runFresh, i.isEmpty_words, Bool.false_eq_true, if_false, i.options, Act.perform_bind, hcheck, i.command,
      hprepare, i.arguments]
    generalize (Command.runCommand _ _ _).perform _ = run
    obtain ⟨result, after⟩ := run
    cases result <;> rfl
  exact ⟨{ s with setting := s.setting.forget.load.2, journal }, ⟨h.sound, h.files, hgives.load, h.room, hstreams⟩, rfl, rfl,
    by rw [hload], Command.run_of_fresh hfresh⟩

/-! ### What a run does -/

variable {i : Invocation state} {call : HostCall}

/-- A call for the word prints it, and nothing changes. -/
theorem act_get (h : s.Ready state path c last?) (hcall : i.request.call? = some call)
    (hasked : call.asked (.ok c) = .ok (Manifest.getter, [])) :
    ∃ document errors, Command.envelopeText (Site.getOutcome (last?.getD 0)) = .ok document ∧
      i.act.perform s = (.ok (.finished 0
        (if i.request.showsJson i.json (Site.getOutcome (last?.getD 0)) then (document ++ "\n" : String)
          else i.request.text (Site.getOutcome (last?.getD 0))) errors), s) := by
  obtain ⟨start, hregisters, hfiles, -, henv, hact⟩ := act_perform h i
  rw [← hregisters.given] at hasked
  obtain ⟨document, after, hdocument, hrun, hafter⟩ := Command.dispatch_get hregisters (henv ▸ h.located) hasked i.json
    (i.request.showsJson i.json) i.request.text
  rw [Request.runCommand_of_call hcall, hrun] at hact
  simp only [hafter, hfiles] at hact
  exact ⟨document, _, hdocument, hact⟩

/-- A call to set a number exits with 0 and leaves the number in the file. -/
theorem act_set (h : s.Ready state path c last?) (hcall : i.request.call? = some call) {n : Nat}
    (hasked : call.asked (.ok c) = .ok (Manifest.setter, [n])) :
    exit? (i.act.perform s).1 = some 0 ∧ (i.act.perform s).2.Ready state path c (some n) := by
  obtain ⟨start, hregisters, -, hmedium, henv, hact⟩ := act_perform h i
  rw [← hregisters.given] at hasked
  obtain ⟨output, after, hrun, hafter⟩ := Command.dispatch_set hregisters (henv ▸ h.located) hasked i.json
    (i.request.showsJson i.json) i.request.text
  rw [Request.runCommand_of_call hcall, hrun] at hact
  rw [hact]
  refine ⟨rfl, h.configured, h.room, h.askable, h.located, h.sound, ?_⟩
  rw [hmedium] at hafter
  exact hafter

/-- A call that is not taken exits with 2, and nothing changes. -/
theorem act_rejected (h : s.Ready state path c last?) (hcall : i.request.call? = some call) {f : Fault}
    (hasked : call.asked (.ok c) = .error f) : exit? (i.act.perform s).1 = some 2 ∧ (i.act.perform s).2 = s := by
  obtain ⟨start, hregisters, hfiles, -, henv, hact⟩ := act_perform h i
  have hf := Request.asked_fails hcall i.countable c f hasked
  rw [← hregisters.given] at hasked
  obtain ⟨output, after, hrun, hafter⟩ := Command.dispatch_rejected hregisters (henv ▸ h.located) hasked hf i.json
    (i.request.showsJson i.json) i.request.text
  rw [Request.runCommand_of_call hcall, hrun] at hact
  simp only [hafter, hfiles] at hact
  rw [hact]
  exact ⟨rfl, rfl⟩

/-- What a run should make of surroundings: it is answered, it is accepted if it has a number to write, which is then the one
written last, and else the files are as they were. -/
structure Lawful (path : Path) (c : Config) (last? : Option Nat) (s : Surroundings) (i : Invocation state)
    (reply : Except Fault Outcome) (after : Surroundings) : Prop where
  answered : i.request.Answered c.maxCalldataBytes i.json (last?.getD 0) reply
  accepted : accepted? c.maxCalldataBytes (i, reply) = i.request.written? c.maxCalldataBytes
  ready : after.Ready state path c ((i.request.written? c.maxCalldataBytes).or last?)
  kept : i.request.written? c.maxCalldataBytes = none → after.files = s.files

/-- A run without a number to write is lawful if it is answered and changes nothing. -/
theorem Lawful.of_unchanged (h : s.Ready state path c last?) {reply : Except Fault Outcome}
    (hanswered : i.request.Answered c.maxCalldataBytes i.json (last?.getD 0) reply)
    (hnone : i.request.written? c.maxCalldataBytes = none) : Lawful path c last? s i reply s where
  answered := hanswered
  accepted := by rw [accepted?, hnone, ite_self]
  ready := by
    rw [hnone, Option.none_or]
    exact h
  kept := fun _ => rfl

/-- A run that makes a call exits with 0 exactly if the call is taken, and is lawful if it is answered. -/
theorem step_call (h : s.Ready state path c last?) (hcall : i.request.call? = some call) :
    exit? (i.act.perform s).1 = some (if (call.asked (.ok c)).isOk then 0 else 2) ∧
      (i.request.Answered c.maxCalldataBytes i.json (last?.getD 0) (i.act.perform s).1 →
        Lawful path c last? s i (i.act.perform s).1 (i.act.perform s).2) := by
  have hwritten : ∀ n, i.request.written? c.maxCalldataBytes = some n ↔ call.asked (.ok c) = .ok (Manifest.setter, [n]) := by
    intro n
    rw [Request.written?, hcall, Option.bind_some]
    exact HostCall.written?_iff
  have hnone : (∀ n, call.asked (.ok c) ≠ .ok (Manifest.setter, [n])) → i.request.written? c.maxCalldataBytes = none :=
    fun hne => Option.eq_none_iff_forall_ne_some.mpr fun n hn => hne n ((hwritten n).mp hn)
  cases hasked : call.asked (.ok c) with
  | error f =>
    obtain ⟨hexit, hafter⟩ := act_rejected h hcall hasked
    refine ⟨hexit, fun hanswered => ?_⟩
    rw [hafter]
    exact .of_unchanged h hanswered (hnone (by rw [hasked]; exact nofun))
  | ok asked =>
    obtain ⟨m, ns⟩ := asked
    rcases HostCall.allows_of_asked hasked with ⟨rfl, n, -, rfl⟩ | ⟨rfl, rfl⟩
    · obtain ⟨hexit, hready⟩ := act_set h hcall hasked
      have hn := (hwritten n).mpr hasked
      refine ⟨hexit, fun hanswered => ⟨hanswered, ?_, ?_, ?_⟩⟩
      · rw [accepted?, if_pos hexit]
      · rw [hn, Option.some_or]
        exact hready
      · rw [hn]
        exact nofun
    · obtain ⟨document, errors, -, hact⟩ := act_get h hcall hasked
      rw [hact]
      exact ⟨rfl, fun hanswered => .of_unchanged h hanswered (hnone (by rw [hasked]; exact nofun))⟩

/-- Calldata is answered if the exit code says whether it decodes. -/
theorem answered_call {most : Nat} {json : Bool} {n : Nat} {hex : Text} {data : Bytes} {reply : Except Fault Outcome}
    (hdata : Request.calldata? hex = some data)
    (hexit : exit? reply = some (if (Calldata.decode most Manifest.packaged data).isOk then 0 else 2)) :
    (Request.call hex).Answered most json n reply := by
  have hspells : ∀ {other}, Request.Spells hex other → other = data := fun h =>
    Option.some.inj ((Request.calldata?_eq_some_iff.mpr h).symm.trans hdata)
  rw [Request.Answered, hexit]
  cases hdecode : Calldata.decode most Manifest.packaged data with
  | ok asked => exact ⟨.inl rfl, fun _ => ⟨data, asked.1, asked.2, Request.calldata?_eq_some_iff.mp hdata, hdecode⟩, fun _ => rfl⟩
  | error f =>
    refine ⟨.inr rfl, nofun, ?_⟩
    rintro ⟨other, m, ns, hother, hok⟩
    rw [hspells hother, hdecode] at hok
    nomatch hok

/-- A run with calldata that is no hex is lawful: it exits with 2 before anything is done. -/
theorem step_not_hex (h : s.Ready state path c last?) {hex : Text} (hrequest : i.request = .call hex)
    (hdata : Request.calldata? hex = none) : Lawful path c last? s i (i.act.perform s).1 (i.act.perform s).2 := by
  obtain ⟨start, -, hfiles, -, -, hact⟩ := act_perform h i
  obtain ⟨journal, hrun⟩ := Request.runCommand_not_hex hdata ⟨some (Path.ofText state), i.json⟩ start
  rw [hrequest, Request.command, Request.arguments, hrun] at hact
  simp only [hfiles] at hact
  rw [hact]
  refine .of_unchanged h ?_ ?_
  · rw [hrequest]
    refine ⟨.inr rfl, fun hexit => absurd (Option.some.inj hexit) (by decide : ¬2 = 0), ?_⟩
    rintro ⟨data, -, -, hspells, -⟩
    rw [Request.calldata?_eq_some_iff.mpr hspells] at hdata
    cases hdata
  · rw [hrequest, Request.written?, Request.call?, hdata]
    rfl

/-- A run that shows a document is lawful: it leaves the files alone. -/
theorem step_document (h : s.Ready state path c last?) (hrequest : i.request = .abi ∨ i.request = .info) :
    Lawful path c last? s i (i.act.perform s).1 (i.act.perform s).2 := by
  obtain ⟨start, -, hfiles, -, -, hact⟩ := act_perform h i
  have hkept := Request.files_runCommand_document hrequest ⟨some (Path.ofText state), i.json⟩ start
  rw [hact]
  simp only [hkept, hfiles]
  refine .of_unchanged h ?_ ?_
  · rcases hrequest with hrequest | hrequest <;> rw [hrequest] <;> trivial
  · rcases hrequest with hrequest | hrequest <;> rw [hrequest] <;> rfl

/-- One run, whatever it asks for. -/
theorem step (h : s.Ready state path c last?) (i : Invocation state) :
    Lawful path c last? s i (i.act.perform s).1 (i.act.perform s).2 := by
  cases hrequest : i.request with
  | get =>
    have hcall : i.request.call? = some (.named "get" []) := by rw [hrequest]; rfl
    obtain ⟨document, errors, hdocument, hact⟩ := act_get h hcall (Request.asked_get _)
    refine (step_call h hcall).2 ?_
    rw [hact, hrequest]
    refine ⟨if i.json then document else decimalNat (last?.getD 0), errors, ?_, fun hplain => ?_, fun hjson => ?_⟩
    · cases i.json <;> rfl
    · rw [hplain]
      rfl
    · rw [hjson]
      exact reads_getOutcome hdocument
  | set value =>
    have hcall : i.request.call? = some (.named "set" [.text value]) := by rw [hrequest]; rfl
    obtain ⟨hexit, hlawful⟩ := step_call h hcall
    refine hlawful ?_
    rw [hrequest]
    refine hexit.trans ?_
    rw [HostCall.asked, request_set]
    cases coerceUInt 256 (.text value) <;> rfl
  | call hex =>
    cases hdata : Request.calldata? hex with
    | none => exact step_not_hex h hrequest hdata
    | some data =>
      have hcall : i.request.call? = some (.raw data) := by rw [hrequest, Request.call?, hdata]; rfl
      obtain ⟨hexit, hlawful⟩ := step_call h hcall
      refine hlawful ?_
      rw [hrequest]
      exact answered_call hdata hexit
  | abi => exact step_document h (.inl hrequest)
  | info => exact step_document h (.inr hrequest)

/-- Runs one after another: the writes that are accepted are those that have a number to write, and the last of them is the
number written last. -/
theorem ready_runAll (h : s.Ready state path c last?) (runs : List (Invocation state)) :
    (Act.runAll act runs s).1.filterMap (accepted? c.maxCalldataBytes) =
        runs.filterMap (·.request.written? c.maxCalldataBytes) ∧
      (Act.runAll act runs s).2.Ready state path c
        ((runs.filterMap (·.request.written? c.maxCalldataBytes)).getLast?.or last?) := by
  induction runs generalizing last? s with
  | nil => exact ⟨rfl, h⟩
  | cons i runs ih =>
    obtain ⟨hhistory, hready⟩ := ih (step h i).ready
    rw [Act.runAll_cons, List.filterMap_cons, List.filterMap_cons, (step h i).accepted, hhistory]
    cases hwritten : i.request.written? c.maxCalldataBytes with
    | none =>
      rw [hwritten, Option.none_or] at hready
      exact ⟨rfl, hready⟩
    | some n =>
      rw [hwritten, ← Option.or_assoc, Option.or_some] at hready
      dsimp only
      rw [List.getLast?_cons]
      exact ⟨rfl, hready⟩

end

/-- Command lines implement a register. Let the configuration that the environment gives have room for the slot's key, and let
there be no file at the state path, which can be written. Of any number of command lines that name it, each in a process of its
own, just those that have a number to write are accepted as writes. After them there is still no file if no write was accepted,
and else the file loads as the word of the write accepted last under the slot's key, and nothing more. Whatever command line comes
next, it is answered as the number written last, zero if there is none, demands, and unless it is a write that is accepted the
files stay as they are. -/
theorem command_lines_keep_register (state : Text) (path : Path) (c : Config) (s : Surroundings)
    (configured : Config.ofEnvironment s.setting.env = .ok c) (room : 32 ≤ c.maxKeyBytes)
    (askable : (Path.ofText state).flaw? = none) (located : s.setting.env.expand (Path.ofText state) = .ok path)
    (sound : path.flaw? = none) (absent : s.files.has path = .ok false)
    (writable : (s.files.replace s.medium path []).1 = .ok ()) (runs : List (Invocation state)) :
    let history := (Act.runAll act runs s).1
    let now := (Act.runAll act runs s).2
    let last? := (history.filterMap (accepted? c.maxCalldataBytes)).getLast?
    last? = (runs.filterMap (·.request.written? c.maxCalldataBytes)).getLast? ∧
      (match last? with
        | none => now.files.has path = .ok false
        | some n => ∃ content word, toWord (.int n) = .ok word ∧ now.files.read path = .ok content ∧
            StateFile.decode content = .ok [(slotKey, word)]) ∧
      ∀ next : Invocation state,
        let reply := (next.act.perform now).1
        next.request.Answered c.maxCalldataBytes next.json (last?.getD 0) reply ∧
          (accepted? c.maxCalldataBytes (next, reply) = none → (next.act.perform now).2.files = now.files) := by
  intro history now last?
  have hready : s.Ready state path c none :=
    ⟨configured, room, askable, located, sound, .inr ⟨nofun, absent, fun _ => rfl⟩, writable, nofun⟩
  obtain ⟨hhistory, hruns⟩ := ready_runAll hready runs
  have hwritten : last? = (runs.filterMap (·.request.written? c.maxCalldataBytes)).getLast? := congrArg List.getLast? hhistory
  have hnow : now.Ready state path c last? := by
    rw [hwritten, ← Option.or_none (o := List.getLast? _)]
    exact hruns
  refine ⟨hwritten, ?_, fun next => ⟨(step hnow next).answered, fun hnone =>
    (step hnow next).kept ((step hnow next).accepted.symm.trans hnone)⟩⟩
  cases hlast : last? with
  | none =>
    rw [hlast] at hnow
    rcases hnow.files.file with ⟨hsome, -⟩ | ⟨-, hhas, -⟩
    · nomatch hsome
    · exact hhas
  | some n =>
    rw [hlast] at hnow
    have hn := hnow.files.inRange n rfl
    rcases hnow.files.file with ⟨-, content, held, hread, hdecode, hsame⟩ | ⟨hnone, -⟩
    · have hheld := (StateFile.wellFormed_of_decode hdecode).eq_singleton hsame
      refine ⟨content, Bytes.ofNat wordBytes n, ?_, hread, hdecode.trans (congrArg _ hheld)⟩
      exact map_eq_ok.mpr ⟨n, requireWord_nat "value" hn, rfl⟩
    · exact absurd rfl hnone

/-- A number in hex is set, calldata that is no hex is refused, and the next run prints the number, in decimal or as JSON. -/
theorem command_lines_keep_register_after_set :
    let state : Text := "slots.json"
    let path : Path := ⟨.here, ["slots.json"]⟩
    let c : Config := ⟨none, "WARNING", none, 1024, 64⟩
    let s : Surroundings := {
      setting := ⟨[], none⟩
      files := .empty
      medium := .sound "/work" "temporal"
      journal := .fresh
      stamp := ⟨"2025-01-01T00:00:00", 1, 1, 4096⟩ }
    let runs := [ofRequest state (.set "0x_2A") true (by decide), ofRequest state (.call "0xzz") false (by decide)]
    let next := ofRequest state .get false (by decide)
    let document := ofRequest state .get true (by decide)
    let now := (Act.runAll act runs s).2
    Config.ofEnvironment s.setting.env = .ok c ∧ 32 ≤ c.maxKeyBytes ∧ (Path.ofText state).flaw? = none ∧
      s.setting.env.expand (Path.ofText state) = .ok path ∧ path.flaw? = none ∧ s.files.has path = .ok false ∧
      (s.files.replace s.medium path []).1 = .ok () ∧
      (∃ content word, toWord (.int 42) = .ok word ∧ now.files.read path = .ok content ∧
        StateFile.decode content = .ok [(slotKey, word)]) ∧
      (∃ errors, (next.act.perform now).1 = .ok (.finished 0 "42\n" errors)) ∧
      (∃ line errors, (document.act.perform now).1 = .ok (.finished 0 (line ++ "\n" : String) errors) ∧
        Json.read 1 line.toList = .ok (.record (returnedFields 42))) ∧
      (next.act.perform now).2.files = now.files := by
  intro state path c s runs next document now
  have hconfigured : Config.ofEnvironment s.setting.env = .ok c := rfl
  have hroom : 32 ≤ c.maxKeyBytes := by decide
  have haskable : (Path.ofText state).flaw? = none := by decide
  have hlocated : s.setting.env.expand (Path.ofText state) = .ok path := rfl
  have hsound : path.flaw? = none := by decide
  have habsent : s.files.has path = .ok false := rfl
  have hwritable : (s.files.replace s.medium path []).1 = .ok () := by rfl
  have hwritten : (runs.filterMap (·.request.written? c.maxCalldataBytes)).getLast? = some 42 := by decide +kernel
  have hnow : (Act.runAll act runs s).2 = now := rfl
  obtain ⟨hlast, hkeeps⟩ := command_lines_keep_register state path c s hconfigured hroom haskable hlocated hsound habsent
    hwritable runs
  rw [hwritten] at hlast
  rw [hlast, hnow] at hkeeps
  obtain ⟨hfile, hnext⟩ := hkeeps
  obtain ⟨⟨line, errors, hreply, hplain, -⟩, hkept⟩ := hnext next
  obtain ⟨⟨text, errors', hreply', -, hjson⟩, -⟩ := hnext document
  have hnone : accepted? c.maxCalldataBytes (next, (next.act.perform now).1) = none := ite_self _
  rw [hplain rfl] at hreply
  exact ⟨hconfigured, hroom, haskable, hlocated, hsound, habsent, hwritable, hfile, ⟨errors, hreply⟩,
    ⟨text, errors', hreply', (hjson rfl).2 1 Nat.one_pos⟩, hkept hnone⟩

end Invocation

end WordSlot
