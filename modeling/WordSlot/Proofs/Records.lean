import WordSlot.Host
import WordSlot.Proofs.LogFiles
import WordSlot.Proofs.LogLines

/-!
# What the package's records tell

The host logs that a call was applied, with the function's name, or that it was rejected, with the reason and its code; a backend
logs what it has loaded. As a JSON line such a record tells its fields, unless the context has them already, and it can be written
unless a value of the context cannot.
-/

namespace WordSlot

open Outcome

/-! ## Notices -/

/-- What the log is to say of an outcome: the name of its level with the mark of its colour, a message, and a field with its value. -/
structure Notice where
  level : Text
  mark : Text
  message : Text
  key : Text
  value : Text

namespace Notice

/-- The notice of a call that was applied, by the function's name. -/
def applied (name : Text) : Notice := ⟨"DEBUG", "\x1b[90m", "call applied", "function", name⟩

/-- The notice of a call that was rejected, by the reason and its code. -/
def rejected (message code : Text) : Notice := ⟨"WARNING", "\x1b[33m", "call rejected: " ++ message, "code", code⟩

/-- The fields that a notice decides. -/
def fields (n : Notice) (stamp : Stamp) : Fields :=
  [("ts", .text stamp.time), ("level", .text n.level), ("logger", .text Site.hostLogger), ("msg", .text n.message),
   ("pid", .int stamp.process), ("tid", .int stamp.thread), (n.key, .text n.value)]

end Notice

/-- What is found under a name is one of the fields. -/
theorem Fields.mem_of_value? {fields : Fields} {k : Text} {v : Value} (h : fields.value? k = some v) : (k, v) ∈ fields := by
  obtain ⟨before, after, rfl, -⟩ := List.lookup_eq_some_iff.mp h
  exact List.mem_append_right before List.mem_cons_self

/-! ## Values that JSON has a text for -/

namespace Value

/-- A key that JSON knows: text, a number, a truth value or nothing. -/
def isJsonKey : Value → Bool
  | .text _ | .int _ | .real _ | .bool _ | .none => true
  | _ => false

mutual

/-- JSON has a text for a value: every number in it has one, and its dictionaries have keys that JSON knows. -/
def hasJson : Value → Bool
  | .int n => (decimal? n).isSome
  | .list items | .tuple items => allHaveJson items
  | .dict entries => entriesHaveJson entries
  | _ => true

/-- JSON has texts for items. -/
def allHaveJson : List Value → Bool
  | [] => true
  | v :: vs => hasJson v && allHaveJson vs

/-- JSON has texts for entries. -/
def entriesHaveJson : List (Value × Value) → Bool
  | [] => true
  | (k, v) :: rest => isJsonKey k && hasJson k && hasJson v && entriesHaveJson rest

end

end Value

namespace Json

/-- A number that has a text is written. -/
theorem decimalText_of_isSome {n : Int} (h : (decimal? n).isSome = true) : ∃ s, Value.decimalText n = .ok s := by
  unfold Value.decimalText
  -- The digits of the largest number that has a text are too many to be evaluated.
  generalize decimal? n = text at h ⊢
  cases text with
  | none => cases h
  | some s => exact ⟨s, rfl⟩

/-- A number of a word at most has a text. -/
theorem decimal?_isSome {n : Int} (h : n.natAbs < 2 ^ 256) : (decimal? n).isSome = true := by
  have htext := decimalText_word h
  unfold Value.decimalText at htext
  generalize decimal? n = text at htext ⊢
  cases text with
  | none => cases htext
  | some s => rfl

/-- A key that JSON knows is written. -/
theorem keyCodes_ok {k : Value} (hkey : k.isJsonKey = true) (hjson : k.hasJson = true) : ∃ codes, keyCodes k = .ok codes := by
  cases k with
  | int n =>
    obtain ⟨s, hs⟩ := decimalText_of_isSome (n := n) (by simpa only [Value.hasJson] using hjson)
    exact ⟨_, by rw [keyCodes, hs]; rfl⟩
  | text | bool | none | real => exact ⟨_, rfl⟩
  | _ => cases hkey

mutual

/-- What has a JSON text is written, values without a JSON form by their plain text. -/
theorem writeAt_ok (style : Style) (v : Value) (level : Nat) (h : v.hasJson = true) :
    ∃ cs, writeAt style Value.plainText level v = .ok cs := by
  cases v with
  | none | bool | real | text => exact ⟨_, by rw [writeAt]; rfl⟩
  | bytes | buffer | path | type => exact ⟨_, by simp only [writeAt]; rfl⟩
  | int n =>
    rw [Value.hasJson] at h
    obtain ⟨s, hs⟩ := decimalText_of_isSome h
    exact ⟨_, by rw [writeAt, hs]; rfl⟩
  | list items | tuple items =>
    rw [Value.hasJson] at h
    obtain ⟨cs, hcs⟩ := writeItems_ok style items (level + 1) h
    exact ⟨_, by rw [writeAt, hcs]; rfl⟩
  | dict entries =>
    rw [Value.hasJson] at h
    obtain ⟨cs, hcs⟩ := writeEntries_ok style entries (level + 1) h
    exact ⟨_, by rw [writeAt, hcs]; rfl⟩

/-- Items that have JSON texts are written. -/
theorem writeItems_ok (style : Style) (items : List Value) (level : Nat) (h : Value.allHaveJson items = true) :
    ∃ cs, writeItems style Value.plainText level items = .ok cs := by
  cases items with
  | nil => exact ⟨_, by rw [writeItems]; rfl⟩
  | cons v vs =>
    rw [Value.allHaveJson, Bool.and_eq_true] at h
    obtain ⟨item, hitem⟩ := writeAt_ok style v level h.1
    obtain ⟨items, hitems⟩ := writeItems_ok style vs level h.2
    exact ⟨_, by rw [writeItems, hitem, hitems]; rfl⟩

/-- Entries that have JSON texts are written. -/
theorem writeEntries_ok (style : Style) (entries : List (Value × Value)) (level : Nat)
    (h : Value.entriesHaveJson entries = true) :
    ∃ cs, writeEntries style Value.plainText level entries = .ok cs := by
  match entries with
  | [] => exact ⟨_, by rw [writeEntries]; rfl⟩
  | (k, v) :: rest =>
    simp only [Value.entriesHaveJson, Bool.and_eq_true] at h
    obtain ⟨⟨⟨hkey, hk⟩, hv⟩, hrest⟩ := h
    obtain ⟨codes, hcodes⟩ := keyCodes_ok hkey hk
    obtain ⟨value, hvalue⟩ := writeAt_ok style v level hv
    obtain ⟨items, hitems⟩ := writeEntries_ok style rest level hrest
    exact ⟨_, by rw [writeEntries, hcodes, hvalue, hitems]; rfl⟩

end

/-- Named values have a JSON text if each of them has. -/
theorem hasJson_record {fields : Fields} (h : ∀ f ∈ fields, f.2.hasJson = true) : (Value.record fields).hasJson = true := by
  rw [Value.record, Value.hasJson]
  induction fields with
  | nil => rfl
  | cons f fields ih =>
    obtain ⟨hf, hfields⟩ := List.forall_mem_cons.mp h
    simp only [List.map_cons, Value.entriesHaveJson, ih hfields, hf]
    rfl

end Json

/-- The numbers of processes and threads have a text, and all else that a notice says is text. -/
theorem Notice.hasJson_fields (n : Notice) {stamp : Stamp} (hprocess : stamp.process < 2 ^ 64) (hthread : stamp.thread < 2 ^ 64) :
    ∀ f ∈ n.fields stamp, f.2.hasJson = true := by
  have hnumber : ∀ m : Nat, m < 2 ^ 64 → (Value.int m).hasJson = true := by
    intro m hm
    rw [Value.hasJson]
    exact Json.decimal?_isSome (by rw [Int.natAbs_natCast]; exact hm.trans (by decide))
  simp only [Notice.fields, List.forall_mem_cons, hnumber _ hprocess, hnumber _ hthread, List.not_mem_nil,
    IsEmpty.forall_iff, implies_true, and_true, true_and]
  simp only [Value.hasJson, true_and]

/-! ## Templates -/

namespace Template

/-- What has no percent mark is written as it stands. -/
theorem fill_literal (room : Nat) {codes : List Nat} (h : 0x25 ∉ codes) (rest : List Nat) (fuel : Nat) (s : Supply) :
    fill room (codes.length + fuel) (codes ++ rest) s = (fill room fuel rest s).map fun (tail, s) => (codes ++ tail, s) := by
  induction codes with
  | nil =>
    rw [List.length_nil, Nat.zero_add, List.nil_append]
    cases fill room fuel rest s <;> rfl
  | cons code codes ih =>
    have hcode := List.ne_of_not_mem_cons h
    have hlen : (code :: codes).length + fuel = (codes.length + fuel) + 1 := by rw [List.length_cons]; omega
    have hstep : fill room (codes.length + fuel + 1) (code :: (codes ++ rest)) s = (do
        let (tail, s) ← fill room (codes.length + fuel) (codes ++ rest) s
        pure (code :: tail, s)) := by
      rw [fill]
      · exact fun _ h => absurd h.symm hcode
      · exact fun h => absurd h.symm hcode
    rw [hlen, List.cons_append, hstep, ih (List.not_mem_of_not_mem_cons h)]
    cases fill room fuel rest s <;> rfl

/-- A text takes the place of its mark as it stands, however little room there is. -/
theorem fill_text (room : Nat) (t : Text) :
    fill room 2 ['%'.toNat, 's'.toNat] ⟨[.text t], none⟩ = .ok (t.codes, ⟨[], none⟩) := by
  have hspec : readSpec ['s'.toNat] ⟨[.text t], none⟩ =
      .ok (⟨false, false, false, false, false, 0, none, 's'.toNat⟩, [], ⟨[.text t], none⟩) := rfl
  have hconvert : convert room ⟨false, false, false, false, false, 0, none, 's'.toNat⟩ (.text t) = .ok t.codes := by
    change pad room _ t.codes = _
    simp [pad, run]
  have hrest : fill room 1 [] ⟨[], none⟩ = .ok ([], ⟨[], none⟩) := rfl
  change readSpec ['s'.toNat] ⟨[.text t], none⟩ >>= _ = _
  refine bind_eq_ok.mpr ⟨_, hspec, bind_eq_ok.mpr ⟨_, rfl, bind_eq_ok.mpr ⟨_, hconvert, bind_eq_ok.mpr ⟨_, hrest, ?_⟩⟩⟩⟩
  change Except.ok (t.codes ++ [], _) = _
  rw [List.append_nil]

end Template

/-- The message of a rejection holds its reason as it stands. -/
theorem fill_rejected (room : Nat) (t : Text) :
    fillTemplate room "call rejected: %s" (.tuple [.text t]) = .ok ("call rejected: " ++ t) := by
  have hcodes : (Text.ofString "call rejected: %s").codes = (Text.ofString "call rejected: ").codes ++ ['%'.toNat, 's'.toNat] := rfl
  have hfuel : (Text.ofString "call rejected: %s").length = (Text.ofString "call rejected: ").codes.length + 2 := rfl
  rw [fillTemplate, hcodes, hfuel, Template.fill_literal room (by decide)]
  change (Template.fill room 2 _ ⟨[.text t], none⟩).map _ >>= _ = _
  rw [Template.fill_text]
  rfl

/-! ## Records -/

/-- A line of characters and its line feed have UTF-8. -/
theorem Utf8.encodeText?_line (text : String) :
    encodeText? (Text.ofString text ++ Text.ofString "\n") = some (encode (text.toList ++ ['\n'])) :=
  encodeText?_eq_some_iff.mpr ⟨_, congrArg Text.mk List.map_append.symm, rfl⟩

/-- The content of a line that tells fields: the text of a JSON object with a line feed behind it. Its names are distinct, and the
value of each is that of the context or else that of the fields. -/
def Fields.ToldIn (own context : Fields) (content : Bytes) : Prop :=
  ∃ (text : String) (shown : Fields), content = Utf8.encode (text.toList ++ ['\n']) ∧ shown.keys.Nodup ∧
    (∀ k, shown.value? k = (context.value? k).or (own.value? k)) ∧
    Json.ObjectText .compact text.toList (shown.map fun f => (.text f.1, f.2)) ∧
    ∀ room, (Value.record shown).nesting ≤ room → Json.read room text.toList = .ok (Value.record shown).readBack

namespace LogRecord

/-- The record of a call that was applied. -/
def applied (name : Text) : LogRecord :=
  .entry Site.hostLogger "DEBUG" LogLevel.debug "call applied" [] [("function", .text name)]

/-- The record of a call that was rejected. -/
def rejected (message code : Text) : LogRecord :=
  .entry Site.hostLogger "WARNING" LogLevel.warning "call rejected: %s" [.text message] [("code", .text code)]

/-- The record of a path that was loaded: there is nothing, or its file holds some slots. -/
def loaded (t : FileTree) (path : Path) (slots : Slots) : LogRecord :=
  match t.has path with
  | .ok false =>
    .entry Site.storageLogger "DEBUG" LogLevel.debug "state file absent, starting empty" [] [("path", .path path)]
  | _ =>
    .entry Site.storageLogger "DEBUG" LogLevel.debug "state file loaded" []
      [("path", .path path), ("slots", .int slots.length)]

/-- The fields of a path that was loaded. -/
def loadedFields (t : FileTree) (path : Path) (slots : Slots) (stamp : Stamp) : Fields :=
  let about (message : Text) (count : Fields) : Fields :=
    ("ts", .text stamp.time) :: ("level", .text "DEBUG") :: ("logger", .text Site.storageLogger) :: ("msg", .text message) ::
      ("pid", .int stamp.process) :: ("tid", .int stamp.thread) :: ("path", .text path.text) :: count
  match t.has path with
  | .ok false => about "state file absent, starting empty" []
  | _ => about "state file loaded" [("slots", .int slots.length)]

/-- What the host logs of an applied call is its record. -/
theorem make_applied (name : Text) :
    (make Site.hostLogger LogLevel.debug (.text "call applied") [] >>= (·.withExtras [("function", .text name)])) =
      .ok (applied name) := rfl

/-- What the host logs of a rejected call is its record. -/
theorem make_rejected (message code : Text) :
    (make Site.hostLogger LogLevel.warning (.text "call rejected: %s") [.text message] >>=
      (·.withExtras [("code", .text code)])) = .ok (rejected message code) := rfl

/-- A record without an exception that tells fields: its own and its extra ones. -/
def Tells (r : LogRecord) (own : Stamp → Fields) : Prop :=
  ∃ message extras, (∀ room, r.text room = .ok message) ∧ r.failure = .ok none ∧ r.shownExtras = .ok extras ∧
    ∀ stamp, own stamp = r.ownFields stamp message ++ extras

/-- The record of a rejection tells its notice. -/
theorem tells_rejected (message code : Text) : (rejected message code).Tells (Notice.rejected message code).fields :=
  ⟨"call rejected: " ++ message, [("code", .text code)], fun room => fill_rejected room message, rfl, rfl, fun _ => rfl⟩

/-- The record of a path that was loaded tells its fields, if a double can hold the number of its slots. -/
theorem tells_loaded (t : FileTree) (path : Path) {slots : Slots} (hslots : slots.length < 2 ^ 53) :
    (loaded t path slots).Tells (loadedFields t path slots) := by
  have hcount : loggable (.int slots.length) = .ok (.int slots.length) := if_pos hslots
  unfold loaded loadedFields
  split
  · exact ⟨_, [("path", .text path.text)], fun _ => rfl, rfl, rfl, fun _ => rfl⟩
  · refine ⟨_, [("path", .text path.text), ("slots", .int slots.length)], fun _ => rfl, rfl, ?_, fun _ => rfl⟩
    change loggableAll [("path", .path path), ("slots", .int slots.length)] = _
    simp only [loggableAll, hcount, ok_bind, pure_eq_ok]
    rfl

variable {r : LogRecord} {own : Stamp → Fields} {context : Fields}

/-- The fields of a line are those of the context, and those that the record tells where the context has none. -/
theorem Tells.payload (h : r.Tells own) (hnodup : context.keys.Nodup) (stamp : Stamp) :
    ∃ fields, r.payload stamp context = .ok fields ∧ fields.keys.Nodup ∧
      ∀ k, fields.value? k = (context.value? k).or ((own stamp).value? k) := by
  obtain ⟨message, extras, htext, hfailure, hextras, hown⟩ := h
  have hpayload : ∃ fields, r.payload stamp context = .ok fields :=
    ⟨_, bind_eq_ok.mpr ⟨_, htext stamp.room, bind_eq_ok.mpr ⟨_, hextras, bind_eq_ok.mpr ⟨_, hfailure, rfl⟩⟩⟩⟩
  obtain ⟨fields, hpayload⟩ := hpayload
  obtain ⟨_, _, _, hmessage, hnone, hshown, hkeys, hvalue⟩ := payload_chosen hnodup hpayload
  obtain rfl := Except.ok.inj ((htext stamp.room).symm.trans hmessage)
  obtain rfl := Except.ok.inj (hfailure.symm.trans hnone)
  obtain rfl := Except.ok.inj (hextras.symm.trans hshown)
  refine ⟨fields, hpayload, hkeys, fun k => ?_⟩
  rw [hvalue, chosen, hown, Fields.value?_append]
  simp only [Option.map_none, ite_self, Option.none_or]

section

variable {s : Surroundings} {handler : Handler} {path : Path}

/-- What a handler of JSON lines adds to its file tells the record. -/
theorem Tells.toldIn (h : r.Tells own) (hnodup : s.journal.context.fields.keys.Nodup) (hformat : handler.format = .json)
    {content : Bytes} (hline : s.fileLine? r handler = some (path, content)) :
    (own s.stamp).ToldIn s.journal.context.fields content := by
  obtain ⟨fields, hpayload, hkeys, hvalue⟩ := h.payload hnodup s.stamp
  unfold Surroundings.fileLine? at hline
  rw [hformat] at hline
  cases hsink : handler.sink with
  | stream index =>
    rw [hsink] at hline
    nomatch hline
  | file p =>
    simp only [hsink, Option.bind_eq_bind, Option.bind_eq_some_iff, Option.pure_def, Option.some.injEq, Prod.mk.injEq] at hline
    obtain ⟨line, hwritten, bytes, hbytes, -, rfl⟩ := hline
    obtain ⟨text, htext, rfl⟩ := map_eq_ok.mp (toOption_eq_some.mp hwritten)
    obtain ⟨fields', hfields', hwrite⟩ := bind_eq_ok.mp htext
    obtain rfl := Except.ok.inj (hpayload.symm.trans hfields')
    obtain ⟨-, hobject, hread⟩ := Json.writeLoosely_record hwrite
    exact ⟨text, fields, Option.some.inj (hbytes.symm.trans (Utf8.encodeText?_line _)), hkeys, hvalue, hobject, hread⟩

/-- A handler of JSON lines always has something to add to its file, if all values have a JSON text. -/
theorem Tells.fileLine (h : r.Tells own) (hnodup : s.journal.context.fields.keys.Nodup) (hformat : handler.format = .json)
    (hsink : handler.sink = .file path) (hcontext : ∀ f ∈ s.journal.context.fields, f.2.hasJson = true)
    (hown : ∀ f ∈ own s.stamp, f.2.hasJson = true) : ∃ content, s.fileLine? r handler = some (path, content) := by
  obtain ⟨fields, hpayload, hkeys, hvalue⟩ := h.payload hnodup s.stamp
  have hjson : ∀ f ∈ fields, f.2.hasJson = true := by
    intro f hf
    have hfound : fields.value? f.1 = some f.2 := (lookup_eq_some_iff_mem hkeys).mpr hf
    rw [hvalue, Option.or_eq_some_iff] at hfound
    rcases hfound with hbound | ⟨-, htold⟩
    · exact hcontext f (Fields.mem_of_value? hbound)
    · exact hown f (Fields.mem_of_value? htold)
  obtain ⟨cs, hcs⟩ := Json.writeAt_ok .compact _ 0 (Json.hasJson_record hjson)
  have hline : r.line s.stamp .json s.journal.context.fields = .ok (String.ofList cs) :=
    map_eq_ok.mpr ⟨_, bind_eq_ok.mpr ⟨fields, hpayload, bind_eq_ok.mpr ⟨cs, hcs, rfl⟩⟩, rfl⟩
  refine ⟨Utf8.encode ((String.ofList cs).toList ++ ['\n']), ?_⟩
  simp only [Surroundings.fileLine?, hsink, hformat, hline, Except.toOption, Option.bind_eq_bind, Option.bind_some,
    Utf8.encodeText?_line, Option.pure_def]

end

end LogRecord

namespace Surroundings

/-- Files that take lines of JSON are told fields when a record is logged at a level: a line that is added to one says them beside
the bound context, and there is a line wherever all values have a JSON text. -/
def TellsFiles (s : Surroundings) (level : Int) (r : LogRecord) (own : Fields) : Prop :=
  s.journal.context.fields.keys.Nodup → ∀ h ∈ s.journal.takers level, h.format = .json → ∀ path, h.sink = .file path →
    (∀ content, s.fileLine? r h = some (path, content) → own.ToldIn s.journal.context.fields content) ∧
    ((∀ f ∈ s.journal.context.fields, f.2.hasJson = true) → (∀ f ∈ own, f.2.hasJson = true) →
      ∃ content, s.fileLine? r h = some (path, content))

/-- A record that tells fields tells them to the files. -/
theorem tellsFiles_of_tells {r : LogRecord} {own : Stamp → Fields} (h : r.Tells own) (s : Surroundings) (level : Int) :
    s.TellsFiles level r (own s.stamp) := by
  intro hnodup handler _ hformat path hsink
  exact ⟨fun _ hline => h.toldIn hnodup hformat hline, fun hcontext hown => h.fileLine hnodup hformat hsink hcontext hown⟩

end Surroundings

end WordSlot
