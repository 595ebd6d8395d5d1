import WordSlot.Log.Line
import WordSlot.Proofs.JsonValues
import WordSlot.Proofs.Tables

/-!
# What a log line tells

A record that is written as JSON is one line of printable characters and one object. Each of its fields has one value: the text of
an exception, or else what the context binds, or else the record's own field, or else an extra field. Values of the context and of
extra fields are shown as the log shows them, so that no number among them is too large for a double. Names that differ are written
differently, but a reader joins halves of surrogate pairs, and so can find the same name twice.
-/

namespace WordSlot

open Outcome

/-! ## Fields -/

namespace Fields

variable {fields more : Fields} {k key : Text} {v : Value}

/-- The names of fields. -/
def keys (fields : Fields) : List Text := fields.map (·.1)

/-- The first field of a name is found. -/
theorem value?_cons (k : Text) (f : Text × Value) (fields : Fields) :
    value? k (f :: fields) = if k = f.1 then some f.2 else fields.value? k := by
  unfold value?
  rw [List.lookup_cons]
  by_cases h : k = f.1
  · simp [h]
  · simp [h, beq_eq_false_iff_ne.mpr h]

/-- Nothing is found under a name exactly if no field has it. -/
theorem value?_eq_none_iff : fields.value? k = none ↔ k ∉ fields.keys := lookup_eq_none_iff_not_mem

/-- A field that is set is found, and the others are as before. -/
theorem value?_put (k key : Text) (v : Value) (fields : Fields) :
    (fields.put key v).value? k = if k = key then some v else fields.value? k := by
  induction fields with
  | nil => rw [put, value?_cons]
  | cons f fields ih =>
    obtain ⟨k', v'⟩ := f
    rw [put]
    by_cases hkey : k' = key
    · subst hkey
      rw [if_pos rfl, value?_cons, value?_cons]
      by_cases hk : k = k' <;> simp [hk]
    · rw [if_neg hkey, value?_cons, value?_cons, ih]
      by_cases hk : k = k'
      · subst hk
        simp [hkey]
      · simp [hk]

/-- Setting a field adds its name, unless it is there. -/
theorem keys_put (key : Text) (v : Value) (fields : Fields) :
    (fields.put key v).keys = if key ∈ fields.keys then fields.keys else fields.keys ++ [key] := by
  induction fields with
  | nil => rfl
  | cons f fields ih =>
    obtain ⟨k', v'⟩ := f
    unfold keys at ih ⊢
    rw [put]
    by_cases hkey : k' = key
    · simp [hkey]
    · rw [if_neg hkey, List.map_cons, ih]
      by_cases hmem : key ∈ fields.map (·.1) <;> simp [hmem, Ne.symm hkey]

/-- Setting a field keeps names distinct. -/
theorem nodup_put (h : fields.keys.Nodup) (key : Text) (v : Value) : (fields.put key v).keys.Nodup := by
  rw [keys_put]
  split
  · exact h
  · rename_i hnew
    rw [← List.concat_eq_append, List.nodup_concat]
    exact ⟨hnew, h⟩

/-- Setting fields keeps names distinct. -/
theorem nodup_putAll (h : fields.keys.Nodup) (more : Fields) : (fields.putAll more).keys.Nodup := by
  induction more generalizing fields with
  | nil => exact h
  | cons f more ih => exact ih (nodup_put h f.1 f.2)

/-- Fields that are set one after another win over those that were there. -/
theorem value?_putAll (hmore : more.keys.Nodup) (k : Text) (fields : Fields) :
    (fields.putAll more).value? k = (more.value? k).or (fields.value? k) := by
  induction more generalizing fields with
  | nil => rfl
  | cons f more ih =>
    obtain ⟨hnew, hnodup⟩ := List.nodup_cons.mp hmore
    have hlater : (fields.putAll (f :: more)).value? k = (value? k more).or ((fields.put f.1 f.2).value? k) := ih hnodup _
    rw [hlater, value?_put, value?_cons]
    by_cases hk : k = f.1
    · subst hk
      simp [value?_eq_none_iff.mpr hnew]
    · simp [hk]

/-- Looking for a field by its name is looking for the name. -/
theorem any_key (key : Text) (fields : Fields) : fields.any (·.1 == key) = decide (key ∈ fields.keys) := by
  rw [Bool.eq_iff_iff, decide_eq_true_eq, keys, List.mem_map, List.any_eq_true]
  simp only [beq_iff_eq]

/-- Fields in front are found first. -/
theorem value?_append (k : Text) (fields more : Fields) : value? k (fields ++ more) = (fields.value? k).or (more.value? k) :=
  List.lookup_append

/-- A field that is added loses to one that is there. -/
theorem value?_add (k key : Text) (v : Value) (fields : Fields) :
    (fields.add key v).value? k = (fields.value? k).or (if k = key then some v else none) := by
  rw [add, any_key]
  by_cases hmem : key ∈ fields.keys
  · rw [if_pos (by simp [hmem])]
    by_cases hk : k = key
    · subst hk
      cases hvalue : fields.value? k with
      | none => exact absurd hmem (value?_eq_none_iff.mp hvalue)
      | some v' => rfl
    · simp [hk]
  · rw [if_neg (by simp [hmem]), value?_append, value?_cons]
    rfl

/-- Adding a field keeps names distinct. -/
theorem nodup_add (h : fields.keys.Nodup) (key : Text) (v : Value) : (fields.add key v).keys.Nodup := by
  rw [add, any_key]
  split
  · exact h
  · rename_i hnew
    exact nodup_map_snoc.mpr ⟨h, of_decide_eq_false (Bool.eq_false_of_not_eq_true hnew)⟩

/-- Fields that are added one after another lose to those that were there. -/
theorem value?_addAll (k : Text) (fields more : Fields) :
    (fields.addAll more).value? k = (fields.value? k).or (more.value? k) := by
  induction more generalizing fields with
  | nil => exact Option.or_none.symm
  | cons f more ih =>
    have hlater : (fields.addAll (f :: more)).value? k = ((fields.add f.1 f.2).value? k).or (value? k more) := ih _
    rw [hlater, value?_add, value?_cons, Option.or_assoc]
    by_cases hk : k = f.1 <;> simp [hk]

/-- Adding fields keeps names distinct. -/
theorem nodup_addAll (h : fields.keys.Nodup) (more : Fields) : (fields.addAll more).keys.Nodup := by
  induction more generalizing fields with
  | nil => exact h
  | cons f more ih => exact ih (nodup_add h f.1 f.2)

/-- What is left of fields is found under the names that are left. -/
theorem value?_filter (p : Text → Bool) (k : Text) (fields : Fields) :
    value? k (fields.filter fun f => p f.1) = if p k then fields.value? k else none := by
  induction fields with
  | nil => simp [value?]
  | cons f fields ih =>
    rw [List.filter_cons, value?_cons]
    by_cases hk : k = f.1
    · subst hk
      by_cases hp : p f.1
      · simp [hp, value?_cons]
      · simp [hp, ih]
    · by_cases hp : p f.1
      · simp [hp, value?_cons, hk, ih]
      · simp [hp, hk, ih]

end Fields

/-! ## Values as the log shows them -/

/-- A value and what the log shows for it. A whole number is shown as itself only if it is smaller than `2 ^ 53`, and a larger one
as its decimal text. -/
structure Value.LoggedAs (v w : Value) : Prop where
  logged : loggable v = .ok w
  small : ∀ n, w = .int n → v = .int n ∧ n.natAbs < 2 ^ 53
  large : ∀ n, v = .int n → 2 ^ 53 ≤ n.natAbs → w = .text (decimalInt n)

/-- What the log makes of a value is shown for it. -/
theorem loggedAs_of_loggable {v w : Value} (h : loggable v = .ok w) : v.LoggedAs w := by
  cases v with
  | int n =>
    have hlogged := h
    rw [loggable] at h
    split at h
    · rename_i hsmall
      cases h
      refine ⟨hlogged, fun m hm => ?_, fun m hm hlarge => ?_⟩
      · cases hm
        exact ⟨rfl, hsmall⟩
      · cases hm
        exact absurd hsmall (Nat.not_lt.mpr hlarge)
    · obtain ⟨s, hs, htext⟩ := bind_eq_ok.mp h
      cases htext
      obtain ⟨-, rfl⟩ := Json.lt_of_decimalText hs
      refine ⟨hlogged, fun m hm => (nomatch hm), fun m hm _ => ?_⟩
      cases hm
      rfl
  | tuple items =>
    have hlogged := h
    rw [loggable] at h
    obtain ⟨t, -, htext⟩ := bind_eq_ok.mp h
    cases htext
    exact ⟨hlogged, fun m hm => (nomatch hm), fun m hm => (nomatch hm)⟩
  | none | bool | real | text | bytes | buffer | path | type | list | dict =>
    refine ⟨h, fun m hm => ?_, fun m hm => (nomatch hm)⟩
    cases h
    nomatch hm

/-- Fields and what the log shows for them, one by one. -/
def Fields.LoggedAs (given shown : Fields) : Prop := List.Forall₂ (fun f g => f.1 = g.1 ∧ f.2.LoggedAs g.2) given shown

namespace Fields

variable {given shown more fields : Fields}

/-- What the log makes of fields is shown for them. -/
theorem loggedAs_of_loggableAll (h : loggableAll given = .ok shown) : given.LoggedAs shown := by
  induction given generalizing shown with
  | nil =>
    cases h
    exact .nil
  | cons f given ih =>
    obtain ⟨k, v⟩ := f
    obtain ⟨w, hw, h⟩ := bind_eq_ok.mp h
    obtain ⟨rest, hrest, h⟩ := bind_eq_ok.mp h
    cases h
    exact .cons ⟨rfl, loggedAs_of_loggable hw⟩ (ih hrest)

/-- A field is shown iff it is there, and as the log shows its value. -/
theorem LoggedAs.value? (h : given.LoggedAs shown) (k : Text) :
    Option.Rel Value.LoggedAs (given.value? k) (shown.value? k) := by
  induction h with
  | nil => exact .none
  | @cons f g given shown hf _ ih =>
    rw [value?_cons, value?_cons, ← hf.1]
    split
    · exact .some hf.2
    · exact ih

/-- A field that is set is shown. -/
theorem LoggedAs.put (h : given.LoggedAs shown) {v w : Value} (hv : v.LoggedAs w) (k : Text) :
    (given.put k v).LoggedAs (shown.put k w) := by
  induction h with
  | nil => exact .cons ⟨rfl, hv⟩ .nil
  | @cons f g given shown hf hrest ih =>
    obtain ⟨k', v'⟩ := f
    obtain ⟨k'', w'⟩ := g
    obtain ⟨rfl, hvalue⟩ := hf
    rw [Fields.put, Fields.put]
    split
    · exact .cons ⟨rfl, hv⟩ hrest
    · exact .cons ⟨rfl, hvalue⟩ ih

/-- Fields that are set are shown. -/
theorem LoggedAs.putAll {more' : Fields} (h : given.LoggedAs shown) (hmore : more.LoggedAs more') :
    (given.putAll more).LoggedAs (shown.putAll more') := by
  induction hmore generalizing given shown with
  | nil => exact h
  | @cons f g more more' hf _ ih =>
    obtain ⟨k, v⟩ := f
    obtain ⟨k', w⟩ := g
    obtain ⟨rfl, hvalue⟩ := hf
    exact ih (h.put hvalue k)

/-- A field that is dropped is shown no more. -/
theorem LoggedAs.drop (h : given.LoggedAs shown) (k : Text) : (given.drop k).LoggedAs (shown.drop k) := by
  induction h with
  | nil => exact .nil
  | @cons f g given shown hf _ ih =>
    unfold Fields.drop at ih ⊢
    rw [List.filter_cons, List.filter_cons, ← hf.1]
    split
    · exact .cons hf ih
    · exact ih

end Fields

/-! ## Contexts -/

namespace LogContext

/-- The contexts that binding, unbinding and scopes lead to, each beside the values as they were given. -/
inductive Bound : LogContext → LogContext → Prop
  | empty : Bound .empty .empty
  | bind {given c c' : LogContext} {fields : Fields} (before : Bound given c) (binds : c.bind fields = .ok c') :
    Bound { given with fields := given.fields.putAll fields } c'
  | unbind {given c : LogContext} (before : Bound given c) (keys : List Text) : Bound (given.unbind keys) (c.unbind keys)
  | clear {given c : LogContext} (before : Bound given c) : Bound given.clear c.clear
  | enter {given c c' : LogContext} {id : Value} (before : Bound given c) (enters : c.enter id = .ok c') :
    Bound ⟨given.fields.put "trace_id" id, given.fields :: given.outer⟩ c'
  | leave {given c : LogContext} (before : Bound given c) : Bound given.leave c.leave

/-- Fields under distinct names beside what the log shows for them. -/
def Shows (given shown : Fields) : Prop := given.LoggedAs shown ∧ shown.keys.Nodup

variable {given shown fields : Fields} {c c' : LogContext}

/-- Binding fields shows them, and leaves what there is to come back to. -/
theorem shows_bind (h : Shows given c.fields) (hbind : c.bind fields = .ok c') :
    Shows (given.putAll fields) c'.fields ∧ c'.outer = c.outer := by
  obtain ⟨logged, hlogged, hc⟩ := bind_eq_ok.mp hbind
  cases hc
  exact ⟨⟨h.1.putAll (Fields.loggedAs_of_loggableAll hlogged), Fields.nodup_putAll h.2 _⟩, rfl⟩

theorem shows_drop (h : Shows given shown) (k : Text) : Shows (given.drop k) (shown.drop k) :=
  ⟨h.1.drop k, h.2.sublist (List.filter_sublist.map _)⟩

/-- Dropping fields shows the others. -/
theorem shows_dropAll (h : Shows given shown) (keys : List Text) :
    Shows (keys.foldl (fun acc k => acc.drop k) given) (keys.foldl (fun acc k => acc.drop k) shown) := by
  induction keys generalizing given shown with
  | nil => exact h
  | cons k keys ih => exact ih (shows_drop h k)

/-- A context shows what was given, and so do those to come back to. -/
theorem Bound.shows {given c : LogContext} (h : Bound given c) :
    Shows given.fields c.fields ∧ List.Forall₂ Shows given.outer c.outer := by
  induction h with
  | empty => exact ⟨⟨.nil, .nil⟩, .nil⟩
  | bind _ binds ih =>
    obtain ⟨hfields, houter⟩ := shows_bind ih.1 binds
    exact ⟨hfields, by rw [houter]; exact ih.2⟩
  | unbind _ keys ih => exact ⟨shows_dropAll ih.1 keys, ih.2⟩
  | clear _ ih => exact ⟨⟨.nil, .nil⟩, ih.2⟩
  | enter _ enters ih =>
    obtain ⟨bound, hbound, hc⟩ := bind_eq_ok.mp enters
    cases hc
    exact ⟨(shows_bind ih.1 hbound).1, .cons ih.1 ih.2⟩
  | @leave given c _ ih =>
    obtain ⟨hfields, houter⟩ := ih
    obtain ⟨fields, outer⟩ := given
    obtain ⟨shown, outer'⟩ := c
    cases houter with
    | nil => exact ⟨hfields, .nil⟩
    | cons hshows hrest => exact ⟨hshows, hrest⟩

end LogContext

/-! ## Lines -/

namespace LogRecord

variable {stamp : Stamp} {context fields extras : Fields} {r : LogRecord}

/-- The fields that a record has of its own. -/
def ownFields (stamp : Stamp) (message : Text) (r : LogRecord) : Fields :=
  [("ts", .text stamp.time), ("level", r.levelName), ("logger", r.logger), ("msg", .text message),
   ("pid", .int stamp.process), ("tid", .int stamp.thread)]

/-- The names of a record's own fields are distinct. -/
theorem nodup_ownFields (stamp : Stamp) (message : Text) (r : LogRecord) : (r.ownFields stamp message).keys.Nodup := by
  have hkeys : ([.ofString "ts", .ofString "level", .ofString "logger", .ofString "msg", .ofString "pid", .ofString "tid"] :
      List Text).Nodup := by decide
  exact hkeys

/-- The value of a field by precedence: the exception, the context, the record's own fields, extra fields. -/
def chosen (failure : Option Text) (context own extras : Fields) (k : Text) : Option Value :=
  (if k = "err" then failure.map .text else none).or ((context.value? k).or ((own.value? k).or (extras.value? k)))

/-- The fields of a line have distinct names, and their values are chosen by precedence. -/
theorem payload_chosen (hcontext : context.keys.Nodup) (h : r.payload stamp context = .ok fields) :
    ∃ message failure extras, r.text stamp.room = .ok message ∧ r.failure = .ok failure ∧ r.shownExtras = .ok extras ∧
      fields.keys.Nodup ∧ ∀ k, fields.value? k = chosen failure context (r.ownFields stamp message) extras k := by
  obtain ⟨message, hmessage, h⟩ := bind_eq_ok.mp h
  obtain ⟨extras, hextras, h⟩ := bind_eq_ok.mp h
  obtain ⟨failure, hfailure, h⟩ := bind_eq_ok.mp h
  have hnodup := Fields.nodup_addAll (Fields.nodup_putAll (nodup_ownFields stamp message r) context) extras
  have hvalue : ∀ k, (((r.ownFields stamp message).putAll context).addAll extras).value? k =
      (context.value? k).or (((r.ownFields stamp message).value? k).or (extras.value? k)) := by
    intro k
    rw [Fields.value?_addAll, Fields.value?_putAll hcontext, Option.or_assoc]
  refine ⟨message, failure, extras, hmessage, hfailure, hextras, ?_⟩
  cases failure with
  | none =>
    cases h
    refine ⟨hnodup, fun k => ?_⟩
    simp only [chosen, Option.map_none, ite_self, Option.none_or]
    exact hvalue k
  | some text =>
    cases h
    refine ⟨Fields.nodup_put hnodup "err" _, fun k => (Fields.value?_put k "err" _ _).trans ?_⟩
    rw [chosen]
    split
    · rfl
    · exact hvalue k

/-- Extra fields with the names of a record's own attributes or with an underscore in front are not shown, and the others are. -/
theorem shownExtras_value? (h : r.shownExtras = .ok extras) (k : Text) :
    (k ∈ reserved ∨ k.codes.head? = some '_'.toNat → extras.value? k = none) ∧
      (k ∉ reserved → k.codes.head? ≠ some '_'.toNat → Option.Rel Value.LoggedAs (r.extras.value? k) (extras.value? k)) := by
  have hrel := (Fields.loggedAs_of_loggableAll h).value? k
  rw [Fields.value?_filter (fun k => k.codes.head? != some '_'.toNat && !reserved.contains k)] at hrel
  constructor
  · intro hhidden
    rw [if_neg (by rcases hhidden with h | h <;> simp [h])] at hrel
    generalize extras.value? k = shown at hrel ⊢
    cases hrel
    rfl
  · intro hreserved hmark
    have hshown : (k.codes.head? != some '_'.toNat && !reserved.contains k) = true := by
      rw [Bool.and_eq_true, bne_iff_ne]
      exact ⟨hmark, by simpa using hreserved⟩
    rwa [if_pos hshown] at hrel

/-- A name in a line is `err`, one of the record's own, or comes from the context or from an extra field. -/
theorem not_hasHalf_of_chosen {failure : Option Text} {message k : Text} {v : Value}
    (hkeys : ∀ k, k ∈ context.keys ∨ k ∈ extras.keys → ¬k.HasHalf)
    (h : chosen failure context (r.ownFields stamp message) extras k = some v) : ¬k.HasHalf := by
  have hmem : ∀ {fields : Fields}, fields.value? k = some v → k ∈ fields.keys := by
    intro fields hvalue
    by_contra hnot
    rw [Fields.value?_eq_none_iff.mpr hnot] at hvalue
    nomatch hvalue
  have hown : ∀ t ∈ (r.ownFields stamp message).keys, ¬t.HasHalf := by
    simp only [Fields.keys, ownFields, List.map_cons, List.map_nil, List.forall_mem_cons]
    exact ⟨Text.not_hasHalf_ofString _, Text.not_hasHalf_ofString _, Text.not_hasHalf_ofString _, Text.not_hasHalf_ofString _,
      Text.not_hasHalf_ofString _, Text.not_hasHalf_ofString _, nofun⟩
  simp only [chosen, Option.or_eq_some_iff] at h
  rcases h with h | ⟨-, h | ⟨-, h | ⟨-, h⟩⟩⟩
  · split at h
    · rename_i herr
      rw [herr]
      exact Text.not_hasHalf_ofString _
    · nomatch h
  · exact hkeys k (.inl (hmem h))
  · exact hown k (hmem h)
  · exact hkeys k (.inr (hmem h))

/-- A JSON line is one line of printable characters, and it is the text of an object. The object has a member for each field and
the names of the fields are distinct; the value of each is chosen by precedence. The line is read as the object of these fields,
with names as they are read back, the last of those that come to the same. Where no name in the context or among the extra fields
holds half of a surrogate pair, none do, and the line is read field by field. What the context shows was bound, and what extra
fields show was given under a name that an extra field can be shown by, each value as the log shows it. -/
theorem json_lines_tell_fields (stamp : Stamp) (r : LogRecord) (given c : LogContext) (line : String)
    (bound : LogContext.Bound given c) (written : r.jsonLine stamp c.fields = .ok line) :
    (∀ char ∈ line.toList, 0x20 ≤ char.toNat ∧ char.toNat ≤ 0x7e) ∧
    ∃ (message : Text) (failure : Option Text) (extras fields : Fields),
      r.text stamp.room = .ok message ∧ r.failure = .ok failure ∧ r.shownExtras = .ok extras ∧
      fields.keys.Nodup ∧
      (∀ k, fields.value? k = chosen failure c.fields (r.ownFields stamp message) extras k) ∧
      Json.ObjectText .compact line.toList (fields.map fun f => (.text f.1, f.2)) ∧
      (∀ room, (Value.record fields).nesting ≤ room → Json.read room line.toList = .ok (Value.record fields).readBack) ∧
      ((∀ k, k ∈ c.fields.keys ∨ k ∈ extras.keys → ¬k.HasHalf) → ∀ room, (Value.record fields).nesting ≤ room →
        Json.read room line.toList = .ok (.record (fields.map fun f => (f.1, f.2.readBack)))) ∧
      (∀ k, Option.Rel Value.LoggedAs (given.fields.value? k) (c.fields.value? k)) ∧
      (∀ k, (k ∈ reserved ∨ k.codes.head? = some '_'.toNat → extras.value? k = none) ∧
        (k ∉ reserved → k.codes.head? ≠ some '_'.toNat →
          Option.Rel Value.LoggedAs (r.extras.value? k) (extras.value? k))) := by
  obtain ⟨hlogged, hnodup⟩ := bound.shows.1
  obtain ⟨fields, hpayload, hwrite⟩ := bind_eq_ok.mp written
  obtain ⟨message, failure, extras, hmessage, hfailure, hextras, hkeys, hvalue⟩ := payload_chosen hnodup hpayload
  obtain ⟨hprintable, hobject, hread⟩ := Json.writeLoosely_record hwrite
  refine ⟨hprintable, message, failure, extras, fields, hmessage, hfailure, hextras, hkeys, hvalue, hobject, hread, ?_,
    hlogged.value?, shownExtras_value? hextras⟩
  intro hhalves room hroom
  have hscalar : ∀ f ∈ fields, ∀ code ∈ f.1.codes, Text.isScalar code = true := by
    intro f hf code hcode
    have hfound : fields.value? f.1 = some f.2 := (lookup_eq_some_iff_mem hkeys).mpr hf
    have hhalf := not_hasHalf_of_chosen hhalves ((hvalue f.1).symm.trans hfound)
    by_contra hnot
    exact hhalf ⟨code, hcode, Bool.eq_false_of_not_eq_true hnot⟩
  rw [hread room hroom, Value.readBack_record hkeys hscalar]

/-- The law at a record whose message the context replaces by one of two lines, with a large number bound and another given, extra
fields that are hidden, reserved or lose to the record's own, and an exception with a character beyond ASCII. -/
theorem json_lines_tell_fields_of_shadowed :
    let stamp : Stamp := ⟨"2025-01-01T00:00:00.000+00:00", 1, 2, 4096⟩
    let r : LogRecord := {
      logger := .text "host", levelName := .text "INFO", level := .int 20, message := .text "set %s", args := .tuple [.int 7]
      extras := [("value", .int (2 ^ 53)), ("_hidden", .int 1), ("name", .text "other"), ("pid", .int 9), ("data", .bytes [255])]
      failure := .ok (some "ValueError: \u00e9") }
    let given : LogContext := ⟨[("msg", .text "two\nlines"), ("n", .int (2 ^ 60))], []⟩
    let c : LogContext := ⟨[("msg", .text "two\nlines"), ("n", .text (decimalInt (2 ^ 60)))], []⟩
    let line := "\x7b\"ts\":\"2025-01-01T00:00:00.000+00:00\",\"level\":\"INFO\",\"logger\":\"host\",\"msg\":\"two\\nlines\"," ++
      "\"pid\":1,\"tid\":2,\"n\":\"1152921504606846976\",\"value\":\"9007199254740992\",\"data\":\"0xff\"," ++
      "\"err\":\"ValueError: \\u00e9\"\x7d"
    LogContext.Bound given c ∧ r.jsonLine stamp c.fields = .ok line ∧
      (∀ char ∈ line.toList, 0x20 ≤ char.toNat ∧ char.toNat ≤ 0x7e) ∧
      ∃ fields : Fields, fields.keys.Nodup ∧ fields.value? "err" = some (.text "ValueError: \u00e9") ∧
        fields.value? "msg" = some (.text "two\nlines") ∧ fields.value? "pid" = some (.int 1) ∧
        fields.value? "value" = some (.text (decimalInt (2 ^ 53))) ∧ fields.value? "name" = none ∧
        ∀ room, (Value.record fields).nesting ≤ room →
          Json.read room line.toList = .ok (.record (fields.map fun f => (f.1, f.2.readBack))) := by
  intro stamp r given c line
  have hlarge : ∀ n : Nat, 53 ≤ n → n < 256 → loggable (.int (2 ^ n)) = .ok (.text (decimalInt (2 ^ n))) := by
    intro n hlow hhigh
    have habs : ((2 : Int) ^ n).natAbs = 2 ^ n := by simp [Int.natAbs_pow]
    have hsmall : ¬((2 : Int) ^ n).natAbs < Nat.pow 2 53 := by
      rw [habs]
      exact Nat.not_lt.mpr (Nat.pow_le_pow_right (by decide) hlow)
    rw [loggable, if_neg hsmall, Json.decimalText_word (by rw [habs]; exact Nat.pow_lt_pow_right (by decide) hhigh)]
    rfl
  have hbind : LogContext.empty.bind given.fields = .ok c := by
    have htext : loggable (.text "two\nlines") = .ok (.text "two\nlines") := rfl
    simp only [LogContext.bind, given, loggableAll, htext, hlarge 60 (by decide) (by decide), ok_bind, pure_eq_ok]
    rfl
  have hbound : LogContext.Bound given c := .bind .empty hbind
  have hline : r.jsonLine stamp c.fields = .ok line := toOption_eq_some.mp (by decide +kernel)
  have hshown : r.shownExtras =
      .ok [("value", .text (decimalInt (2 ^ 53))), ("pid", .int 9), ("data", .text (hexMarked [255]))] := by
    change loggableAll [("value", .int (2 ^ 53)), ("pid", .int 9), ("data", .bytes [255])] = _
    have hsmall : loggable (.int 9) = .ok (.int 9) := rfl
    have hbytes : loggable (.bytes [255]) = .ok (.text (hexMarked [255])) := rfl
    simp only [loggableAll, hlarge 53 (by decide) (by decide), hsmall, hbytes, ok_bind, pure_eq_ok]
  obtain ⟨hchars, message, failure, extras, fields, -, hfailure, hextras, hnodup, hvalue, -, -, hread, -⟩ :=
    json_lines_tell_fields stamp r given c line hbound hline
  obtain rfl : some (.ofString "ValueError: \u00e9") = failure := Except.ok.inj hfailure
  obtain rfl := Except.ok.inj (hshown.symm.trans hextras)
  refine ⟨hbound, hline, hchars, fields, hnodup, hvalue "err", hvalue "msg", hvalue "pid", hvalue "value", hvalue "name",
    hread ?_⟩
  have hnames : ∀ k ∈ [Text.ofString "msg", .ofString "n", .ofString "value", .ofString "pid", .ofString "data"], ¬k.HasHalf := by
    simp [Text.not_hasHalf_ofString]
  intro k hk
  exact hnames k (List.mem_append.mpr hk)

/-- What the law leaves open does happen. An extra field whose name is the two halves of a surrogate pair is read as one of the
character, and wins over the character that the context binds. And a record that was to come with an exception, but with none at
hand, shows that there is none, and not what the context binds for it. -/
theorem json_line_read_otherwise :
    let stamp : Stamp := ⟨"2025-01-01T00:00:00.000+00:00", 1, 2, 4096⟩
    let r : LogRecord := {
      logger := .text "host", levelName := .text "INFO", level := .int 20, message := .text "set", args := .tuple []
      extras := [], failure := .ok none }
    let face : Text := ⟨[0x1f600]⟩
    let halves : Text := ⟨[0xd83d, 0xde00]⟩
    let r₁ := r.set halves (.text "given")
    let c₁ : LogContext := ⟨[(face, .text "bound")], []⟩
    let r₂ := r.set "exc_info" (.tuple [.none, .none, .none])
    let c₂ : LogContext := ⟨[("err", .text "bound")], []⟩
    let own := "\x7b\"ts\":\"2025-01-01T00:00:00.000+00:00\",\"level\":\"INFO\",\"logger\":\"host\",\"msg\":\"set\",\"pid\":1,\"tid\":2,"
    let line₁ := own ++ "\"\\ud83d\\ude00\":\"bound\",\"\\ud83d\\ude00\":\"given\"\x7d"
    let line₂ := own ++ "\"err\":\"NoneType: None\"\x7d"
    (LogContext.Bound c₁ c₁ ∧ ¬face.HasHalf ∧ r₁.jsonLine stamp c₁.fields = .ok line₁ ∧
      ∃ fields : Fields, Json.read 1 line₁.toList = .ok (.record fields) ∧ fields.value? face = some (.text "given")) ∧
    LogContext.Bound c₂ c₂ ∧ r₂.jsonLine stamp c₂.fields = .ok line₂ ∧
      ∃ fields : Fields, Json.read 1 line₂.toList = .ok (.record fields) ∧
        fields.value? "err" = some (.text "NoneType: None") := by
  intro stamp r face halves r₁ c₁ r₂ c₂ own line₁ line₂
  have hbound₁ : LogContext.Bound c₁ c₁ := @LogContext.Bound.bind .empty .empty c₁ c₁.fields .empty rfl
  have hbound₂ : LogContext.Bound c₂ c₂ := @LogContext.Bound.bind .empty .empty c₂ c₂.fields .empty rfl
  have hface : ¬face.HasHalf := by
    rintro ⟨code, hcode, hhalf⟩
    obtain rfl := List.mem_singleton.mp hcode
    nomatch hhalf
  have hline₁ : r₁.jsonLine stamp c₁.fields = .ok line₁ := toOption_eq_some.mp (by decide +kernel)
  have hline₂ : r₂.jsonLine stamp c₂.fields = .ok line₂ := toOption_eq_some.mp (by decide +kernel)
  have hpayload₁ : r₁.payload stamp c₁.fields = .ok (r.ownFields stamp "set" ++ [(face, .text "bound"), (halves, .text "given")]) :=
    rfl
  have hpayload₂ : r₂.payload stamp c₂.fields = .ok (r.ownFields stamp "set" ++ [(.ofString "err", .text "NoneType: None")]) := rfl
  obtain ⟨fields₁, hfields₁, hwrite₁⟩ := bind_eq_ok.mp hline₁
  obtain ⟨fields₂, hfields₂, hwrite₂⟩ := bind_eq_ok.mp hline₂
  obtain rfl := Except.ok.inj (hpayload₁.symm.trans hfields₁)
  obtain rfl := Except.ok.inj (hpayload₂.symm.trans hfields₂)
  have hread₁ := (Json.writeLoosely_record hwrite₁).2.2 1 (Nat.le_refl 1)
  have hread₂ := (Json.writeLoosely_record hwrite₂).2.2 1 (Nat.le_refl 1)
  refine ⟨⟨hbound₁, hface, hline₁, r.ownFields stamp "set" ++ [(face, .text "given")], hread₁.trans rfl, rfl⟩, hbound₂, hline₂,
    r.ownFields stamp "set" ++ [(.ofString "err", .text "NoneType: None")], hread₂.trans rfl, rfl⟩

end LogRecord

end WordSlot
