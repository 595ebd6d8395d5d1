import WordSlot.Proofs.OneLine
import WordSlot.Proofs.Records

/-!
# What the host's lines say

The host logs a notice of every outcome: that a call was applied, with the function's name, or that it was rejected, with the reason
and its code. A notice is written as a line of text in columns, or as a JSON object whose fields it decides together with the
context. Either way it takes one line, and it can always be written, unless a value of the context cannot.
-/

namespace WordSlot

open Outcome

/-! ## Notices -/

/-- The notice of an outcome: an applied call has its name and no error, a rejected one has an error. -/
inductive Envelope.Noted : Envelope → Notice → Prop
  | applied (name : Text) (returned : Option Nat) (data : Bytes) :
    Noted ⟨true, .text name, returned, data, none⟩ (.applied name)
  | rejected (function : Value) (report : Report) :
    Noted ⟨false, function, none, [], some report⟩ (.rejected report.message report.code)

namespace Notice

/-- The names that notices use. -/
def names : List Text := ["ts", "level", "logger", "msg", "pid", "tid", "function", "code"]

/-- The names that the context of a notice may use, none of which is used by notices. -/
def contextKeys : List Text := ["trace_id", "component", "state"]

/-- No field of a notice is named as one of the context. -/
theorem names_disjoint : ∀ k ∈ names, k ∉ contextKeys := by decide

/-- The value that the context shows under a name. -/
def shown? (context : Fields) (k : Text) : Option Value :=
  match context.value? k with
  | some .none => none
  | value => value

/-- The words of what the context shows under some names. -/
def contextWords (context : Fields) (keys : List Text) : List Text :=
  keys.filterMap fun k => (shown? context k).bind fun v => v.plain?.map (k ++ "=" ++ ·)

/-- The context in a column of its own, unless it has nothing to show. -/
def contextColumn (context : Fields) : List Text :=
  if (contextWords context contextKeys).isEmpty then [] else [Text.join " " (contextWords context contextKeys)]

/-- The level's cell, between the marks of its colour if there are colours. -/
def cell (n : Notice) (colour : Bool) : Text := if colour then n.mark ++ n.level ++ "\x1b[0m" else n.level

/-- A notice in columns. -/
def textLine (n : Notice) (stamp : Stamp) (colour : Bool) (context : Fields) : Text :=
  Text.join " | " ([stamp.time, n.cell colour, Site.hostLogger] ++ contextColumn context ++
    [n.message ++ " " ++ n.key ++ "=" ++ n.value])

/-- Columns stand behind one another, and that of the context only if it has something to show. -/
theorem textLine_eq (n : Notice) (stamp : Stamp) (colour : Bool) (context : Fields) :
    n.textLine stamp colour context =
      (let words := contextWords context contextKeys
       let head := stamp.time ++ " | " ++ n.cell colour ++ " | " ++ Site.hostLogger
       let head := if words.isEmpty then head else head ++ " | " ++ Text.join " " words
       head ++ " | " ++ n.message ++ " " ++ Text.join " " [n.key ++ "=" ++ n.value]) := by
  have hcodes : ∀ s t : Text, (s ++ t).codes = s.codes ++ t.codes := fun _ _ => rfl
  unfold textLine contextColumn
  apply Text.codes_inj.mp
  dsimp only
  split <;> simp [hcodes, Text.join]

/-- A line that tells a notice. In text it is the notice in columns. In JSON it is the text of an object and is read as that object,
each of whose fields is one of the notice or else one of the context. -/
def ToldBy (n : Notice) (stamp : Stamp) (context : Fields) : LineFormat → Text → Prop
  | .text colour, line => line = n.textLine stamp colour context
  | .json, line => ∃ (text : String) (shown : Fields), line = text ∧ shown.keys.Nodup ∧
      (∀ k, shown.value? k = ((n.fields stamp).value? k).or (context.value? k)) ∧
      Json.ObjectText .compact text.toList (shown.map fun f => (.text f.1, f.2)) ∧
      ∀ room, (Value.record shown).nesting ≤ room →
        Json.read room text.toList = .ok (.record (shown.map fun f => (f.1, f.2.readBack)))

end Notice

/-! ## Values that a line can show -/

namespace Value

/-- A value that a line can show: in JSON one that has a JSON text, else one that has a text of one line. -/
def FitsLine (v : Value) : LineFormat → Prop
  | .json => v.hasJson = true
  | .text _ => ∃ t, v.plain? = some t ∧ t.OneLine

end Value

/-- A context that the lines of notices can show: with distinct names among those that it may use, and values that fit a line. -/
structure Fields.FitLines (context : Fields) (format : LineFormat) : Prop where
  nodup : context.keys.Nodup
  keys : ∀ k ∈ context.keys, k ∈ Notice.contextKeys
  values : ∀ f ∈ context, f.2.FitsLine format

/-- A time of one line, and numbers of processes and threads as machines have them. -/
structure Stamp.FitsLines (stamp : Stamp) : Prop where
  time : stamp.time.OneLine
  process : stamp.process < 2 ^ 64
  thread : stamp.thread < 2 ^ 64

/-- A context that fits has no other fields. -/
theorem Fields.FitLines.value?_eq_none {context : Fields} {format : LineFormat} (h : context.FitLines format) {k : Text}
    (hk : k ∉ Notice.contextKeys) : context.value? k = none :=
  value?_eq_none_iff.mpr fun hmem => hk (h.keys k hmem)

/-- The fields of a context that fits do. -/
theorem Fields.FitLines.value_fits {context : Fields} {format : LineFormat} (h : context.FitLines format) {k : Text} {v : Value}
    (hv : context.value? k = some v) : v.FitsLine format :=
  h.values (k, v) (Fields.mem_of_value? hv)

/-! ## JSON lines -/

namespace Json

/-- The object of values under distinct names without halves of surrogate pairs is one line and is read as that object. -/
theorem writeLoosely_scalar {fields : Fields} {text : String} (hnodup : fields.keys.Nodup)
    (hscalar : ∀ f ∈ fields, ∀ code ∈ f.1.codes, Text.isScalar code = true)
    (h : writeLoosely .compact (.record fields) = .ok text) :
    (Text.ofString text).OneLine ∧ ObjectText .compact text.toList (fields.map fun f => (.text f.1, f.2)) ∧
      ∀ room, (Value.record fields).nesting ≤ room →
        read room text.toList = .ok (.record (fields.map fun f => (f.1, f.2.readBack))) := by
  obtain ⟨hprintable, hobject, hread⟩ := writeLoosely_record h
  rw [Text.oneLine_ofString_iff]
  rw [Value.readBack_record hnodup hscalar] at hread
  refine ⟨fun char hchar => ?_, hobject, hread⟩
  have hchar := (hprintable char hchar).1
  constructor
  · rintro rfl
    exact absurd hchar (by decide)
  · rintro rfl
    exact absurd hchar (by decide)

end Json

/-! ## Records -/

namespace LogRecord

/-- A record of the host that says a notice: under the host's name, at the notice's level and with no field but the notice's. -/
structure Says (r : LogRecord) (n : Notice) : Prop where
  logger : r.logger = .text Site.hostLogger
  levelName : r.levelName = .text n.level
  cell : padEnd 5 n.level = n.level
  coloured : colouredCell r.level n.level = .ok (n.mark ++ n.level ++ "\x1b[0m")
  text : ∀ room, r.text room = .ok n.message
  shown : r.shownExtras = .ok [(n.key, .text n.value)]
  failure : r.failure = .ok none
  key : n.key = "function" ∨ n.key = "code"
  oneLine : ∀ t ∈ [n.level, n.mark, n.message, n.key, n.value], t.OneLine

variable {r : LogRecord} {n : Notice} {context : Fields} {stamp : Stamp}

/-- A record of a notice has its fields only. -/
theorem Says.mem_names (h : r.Says n) {k : Text} (hk : k ∈ (n.fields stamp).keys) : k ∈ Notice.names := by
  have hfields : (n.fields stamp).keys =
      [.ofString "ts", .ofString "level", .ofString "logger", .ofString "msg", .ofString "pid", .ofString "tid", n.key] := rfl
  have hnames : ∀ key, key = Text.ofString "function" ∨ key = Text.ofString "code" →
      ∀ k ∈ [.ofString "ts", .ofString "level", .ofString "logger", .ofString "msg", .ofString "pid", .ofString "tid", key],
        k ∈ Notice.names := by
    rintro key (rfl | rfl) <;> decide
  rw [hfields] at hk
  exact hnames n.key h.key k hk

/-! ### Lines of text -/

/-- A field that is shown is in the context. -/
theorem value_of_shown {k : Text} {v : Value} (h : Notice.shown? context k = some v) : context.value? k = some v := by
  unfold Notice.shown? at h
  split at h
  · cases h
  · exact h

/-- The fields of the context are written as words. -/
theorem fieldWords_shown {colour : Bool} (hcontext : context.FitLines (.text colour)) (keys : List Text) :
    fieldWords (keys.filterMap fun k => (Notice.shown? context k).map (k, ·)) = .ok (Notice.contextWords context keys) := by
  unfold Notice.contextWords
  induction keys with
  | nil => rfl
  | cons k keys ih =>
    rw [List.filterMap_cons, List.filterMap_cons]
    cases hv : Notice.shown? context k with
    | none => exact ih
    | some v =>
      obtain ⟨t, ht, -⟩ := hcontext.value_fits (value_of_shown hv)
      have hplain : v.plainText = .ok t := by rw [Value.plainText, ht]
      simp only [Option.map_some, Option.bind_some, ht, fieldWords, hplain, ih, ok_bind, pure_eq_ok]

/-- The names that a line of text looks for in the context are those that the context of a notice may use, and one more. -/
theorem contextWords_eq {colour : Bool} (hcontext : context.FitLines (.text colour)) :
    Notice.contextWords context contextKeys = Notice.contextWords context Notice.contextKeys := by
  have hkeys : contextKeys = Notice.contextKeys ++ [Text.ofString "function"] := rfl
  have hfunction : Notice.shown? context "function" = none := by
    rw [Notice.shown?, hcontext.value?_eq_none (by decide)]
  rw [hkeys, Notice.contextWords, List.filterMap_append, List.filterMap_cons, hfunction]
  exact List.append_nil _

/-- The line of a record of a notice is the notice's line. -/
theorem Says.textLine (h : r.Says n) {colour : Bool} (hcontext : context.FitLines (.text colour)) :
    r.textLine stamp colour context = .ok (n.textLine stamp colour context) := by
  have habout := (fieldWords_shown hcontext contextKeys).trans (congrArg _ (contextWords_eq hcontext))
  have hextras : fieldWords ([(n.key, .text n.value)].filter fun e => !context.any (·.1 == e.1)) =
      .ok [n.key ++ "=" ++ n.value] := by
    have hkey : context.any (·.1 == n.key) = false := by
      rw [Fields.any_key, decide_eq_false_iff_not]
      have hmem : n.key ∈ (n.fields stamp).keys := by simp [Notice.fields, Fields.keys]
      have hname : n.key ∈ Notice.names := h.mem_names hmem
      exact fun hmem => Notice.names_disjoint _ hname (hcontext.keys _ hmem)
    rw [List.filter_cons, hkey]
    rfl
  have hcell : levelCell r.levelName = .ok n.level := by
    rw [h.levelName, levelCell, h.cell]
    rfl
  have hlogger : r.logger.plainText = .ok Site.hostLogger := by
    rw [h.logger]
    rfl
  refine bind_eq_ok.mpr ⟨_, (congrArg (fun shown => fieldWords (contextKeys.filterMap shown)) (funext fun k => ?_)).trans habout, ?_⟩
  · unfold Notice.shown?
    rcases context.value? k with _ | v
    · rfl
    · cases v <;> rfl
  refine bind_eq_ok.mpr ⟨_, h.shown, bind_eq_ok.mpr ⟨_, hextras, bind_eq_ok.mpr ⟨_, hcell, ?_⟩⟩⟩
  rw [Notice.textLine_eq]
  cases colour with
  | true =>
    refine bind_eq_ok.mpr ⟨_, h.coloured, bind_eq_ok.mpr ⟨_, hlogger, bind_eq_ok.mpr ⟨_, h.text _, ?_⟩⟩⟩
    exact bind_eq_ok.mpr ⟨_, h.failure, rfl⟩
  | false =>
    refine bind_eq_ok.mpr ⟨_, rfl, bind_eq_ok.mpr ⟨_, hlogger, bind_eq_ok.mpr ⟨_, h.text _, ?_⟩⟩⟩
    exact bind_eq_ok.mpr ⟨_, h.failure, rfl⟩

/-- The line of a notice is one line. -/
theorem Says.oneLine_textLine (h : r.Says n) {colour : Bool} (hcontext : context.FitLines (.text colour))
    (hstamp : stamp.FitsLines) : (n.textLine stamp colour context).OneLine := by
  have hparts := h.oneLine
  simp only [List.forall_mem_cons, List.not_mem_nil, IsEmpty.forall_iff, implies_true, and_true] at hparts
  obtain ⟨hlevel, hmark, hmessage, hkey, hvalue⟩ := hparts
  have hcell : (n.cell colour).OneLine := by
    unfold Notice.cell
    split
    · exact Text.oneLine_append.mpr ⟨Text.oneLine_append.mpr ⟨hmark, hlevel⟩, by decide⟩
    · exact hlevel
  have hwords : ∀ word ∈ Notice.contextWords context Notice.contextKeys, word.OneLine := by
    intro word hword
    obtain ⟨k, hk, hword⟩ := List.mem_filterMap.mp hword
    obtain ⟨v, hv, hword⟩ := Option.bind_eq_some_iff.mp hword
    obtain ⟨t, ht, hline⟩ := hcontext.value_fits (value_of_shown hv)
    rw [ht, Option.map_some, Option.some_inj] at hword
    have hname : ∀ k ∈ Notice.contextKeys, k.OneLine := by decide
    rw [← hword]
    exact Text.oneLine_append.mpr ⟨Text.oneLine_append.mpr ⟨hname k hk, by decide⟩, hline⟩
  have hcolumn : ∀ column ∈ Notice.contextColumn context, column.OneLine := by
    unfold Notice.contextColumn
    split
    · exact nofun
    · exact List.forall_mem_singleton.mpr (Text.oneLine_join (by decide) hwords)
  refine Text.oneLine_join (by decide) ?_
  simp only [List.forall_mem_append, List.forall_mem_cons, List.not_mem_nil, IsEmpty.forall_iff, implies_true, and_true]
  refine ⟨⟨⟨hstamp.time, hcell, by decide⟩, hcolumn⟩, ?_⟩
  simp only [Text.oneLine_append]
  exact ⟨⟨⟨⟨hmessage, by decide⟩, hkey⟩, by decide⟩, hvalue⟩

/-! ### Lines of JSON -/

/-- A record that says a notice tells its fields. -/
theorem Says.tells (h : r.Says n) : r.Tells n.fields := by
  refine ⟨n.message, [(n.key, .text n.value)], h.text, h.failure, h.shown, fun stamp => ?_⟩
  rw [ownFields, h.levelName, h.logger]
  rfl

/-- The fields of a record that says a notice are those of the notice and those of the context. -/
theorem Says.payload (h : r.Says n) (hcontext : context.FitLines .json) (stamp : Stamp) :
    ∃ fields, r.payload stamp context = .ok fields ∧ fields.keys.Nodup ∧
      ∀ k, fields.value? k = ((n.fields stamp).value? k).or (context.value? k) := by
  obtain ⟨fields, hpayload, hnodup, hvalue⟩ := h.tells.payload hcontext.nodup stamp
  refine ⟨fields, hpayload, hnodup, fun k => ?_⟩
  rw [hvalue]
  -- No name of the notice is one that the context may use, so that it does not matter which of the two wins.
  by_cases hk : k ∈ Notice.contextKeys
  · have hnone : (n.fields stamp).value? k = none :=
      Fields.value?_eq_none_iff.mpr fun hmem => Notice.names_disjoint k (h.mem_names hmem) hk
    rw [hnone, Option.or_none, Option.none_or]
  · rw [hcontext.value?_eq_none hk, Option.none_or, Option.or_none]

/-- A record that says a notice can be written as one line of JSON, which tells the notice. -/
theorem Says.jsonLine (h : r.Says n) (hcontext : context.FitLines .json) (hstamp : stamp.FitsLines) :
    ∃ line, r.line stamp .json context = .ok line ∧ line.OneLine ∧ n.ToldBy stamp context .json line := by
  obtain ⟨fields, hpayload, hnodup, hvalue⟩ := h.payload hcontext stamp
  have hmember : ∀ f ∈ fields, (n.fields stamp).value? f.1 = some f.2 ∨ context.value? f.1 = some f.2 := by
    intro f hf
    have hfound : fields.value? f.1 = some f.2 := (lookup_eq_some_iff_mem hnodup).mpr hf
    rw [hvalue, Option.or_eq_some_iff] at hfound
    exact hfound.imp_right And.right
  have hjson : ∀ f ∈ fields, f.2.hasJson = true := by
    intro f hf
    rcases hmember f hf with hown | hbound
    · exact n.hasJson_fields hstamp.process hstamp.thread f (Fields.mem_of_value? hown)
    · exact hcontext.value_fits hbound
  have hscalar : ∀ f ∈ fields, ∀ code ∈ f.1.codes, Text.isScalar code = true := by
    have hnames : ∀ k ∈ Notice.names ++ Notice.contextKeys, ∀ code ∈ k.codes, Text.isScalar code = true := by decide
    intro f hf
    refine hnames f.1 (List.mem_append.mpr ?_)
    rcases hmember f hf with hown | hbound
    · exact .inl (h.mem_names (List.mem_map_of_mem (Fields.mem_of_value? hown)))
    · exact .inr (hcontext.keys _ (List.mem_map_of_mem (Fields.mem_of_value? hbound)))
  obtain ⟨cs, hcs⟩ := Json.writeAt_ok .compact _ 0 (Json.hasJson_record hjson)
  have hwrite : Json.writeLoosely .compact (.record fields) = .ok (String.ofList cs) := bind_eq_ok.mpr ⟨cs, hcs, rfl⟩
  obtain ⟨hline, hobject, hread⟩ := Json.writeLoosely_scalar hnodup hscalar hwrite
  exact ⟨String.ofList cs, map_eq_ok.mpr ⟨_, bind_eq_ok.mpr ⟨fields, hpayload, hwrite⟩, rfl⟩, hline, _, fields, rfl, hnodup,
    hvalue, hobject, hread⟩

/-- A record that says a notice can be written, takes one line and tells the notice. -/
theorem Says.line (h : r.Says n) (format : LineFormat) (hcontext : context.FitLines format) (hstamp : stamp.FitsLines) :
    ∃ line, r.line stamp format context = .ok line ∧ line.OneLine ∧ n.ToldBy stamp context format line := by
  cases format with
  | json => exact h.jsonLine hcontext hstamp
  | text colour => exact ⟨_, h.textLine hcontext, h.oneLine_textLine hcontext hstamp, rfl⟩

/-! ### What the host logs -/

/-- The record of a call that was applied says so. -/
theorem says_applied {name : Text} (hname : name.OneLine) : (applied name).Says (.applied name) := by
  constructor
  case oneLine =>
    simp +decide only [Notice.applied, List.forall_mem_cons, and_true, hname]
  case key => exact .inl rfl
  case text => exact fun _ => rfl
  all_goals rfl

/-- The record of a call that was rejected says so. -/
theorem says_rejected {message code : Text} (hmessage : message.OneLine) (hcode : code.OneLine) :
    (rejected message code).Says (.rejected message code) := by
  constructor
  case oneLine =>
    simp +decide only [Notice.rejected, List.forall_mem_cons, and_true, hcode, Text.oneLine_append, hmessage]
  case text => exact fun room => fill_rejected room message
  case key => exact .inr rfl
  all_goals rfl

end LogRecord

end WordSlot
