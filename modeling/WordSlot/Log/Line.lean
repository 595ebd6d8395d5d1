import WordSlot.Json.Writer
import WordSlot.Log.Record

/-!
# Log lines

A record is written as a JSON object or as a line of text. In the object a field of the context wins over the record's own
fields, those win over extra fields, and the text of an exception wins over all.
-/

namespace WordSlot

/-- When and by whom a line is written, and how many characters of padding its message has room for. -/
structure Stamp where
  time : Text
  process : Nat
  thread : Nat
  room : Nat

/-- How lines are written. -/
inductive LineFormat where
  | json
  | text (colour : Bool)
deriving DecidableEq

namespace LogRecord

/-- The fields of a record's JSON object. -/
def payload (stamp : Stamp) (context : Fields) (r : LogRecord) : Except Fault Fields := do
  let message ← r.text stamp.room
  let base : Fields :=
    [("ts", .text stamp.time), ("level", r.levelName), ("logger", r.logger), ("msg", .text message),
     ("pid", .int stamp.process), ("tid", .int stamp.thread)]
  let fields := (base.putAll context).addAll (← r.shownExtras)
  match ← r.failure with
  | some failure => pure (fields.put "err" (.text failure))
  | none => pure fields

/-- A record as a JSON object on one line. -/
def jsonLine (stamp : Stamp) (context : Fields) (r : LogRecord) : Except Fault String := do
  Json.writeLoosely .compact (.record (← payload stamp context r))

/-- The fields of the context that a line of text shows, in this order. -/
def contextKeys : List Text := ["trace_id", "component", "state", "function"]

/-- Fields as words. -/
def fieldWords : Fields → Except Fault (List Text)
  | [] => pure []
  | (k, v) :: rest => do
    let word := k ++ "=" ++ (← v.plainText)
    let words ← fieldWords rest
    pure (word :: words)

/-- A text filled up with blanks to a width. -/
def padEnd (width : Nat) (t : Text) : Text := ⟨t.codes ++ List.replicate (width - t.length) ' '.toNat⟩

/-- The name of a level, filled up to five characters; only text and numbers can be. -/
def levelCell : Value → Except Fault Text
  | .text t => pure (padEnd 5 t)
  | .real x => pure (padEnd 5 x.text)
  | v =>
    match v.toInt? with
    | some n => do pure (padEnd 5 (← Value.decimalText n))
    | none => throw (.misuse .wrongKind)

/-- The colours of levels. -/
def colours : List (Value × Value) :=
  [(.int LogLevel.debug, .text "\x1b[90m"), (.int LogLevel.info, .text "\x1b[32m"), (.int LogLevel.warning, .text "\x1b[33m"),
   (.int LogLevel.error, .text "\x1b[31m"), (.int LogLevel.critical, .text "\x1b[1m\x1b[35m")]

/-- A level's cell between the marks of its colour. -/
def colouredCell (level : Value) (cell : Text) : Except Fault Text :=
  if !level.canIndex then throw (.misuse .wrongKind)
  else match Value.lookup? level colours with
    | some (.text colour) => pure (colour ++ cell ++ "\x1b[0m")
    | _ => pure (cell ++ "\x1b[0m")

/-- A record as a line of text; the text of an exception follows on lines of its own. -/
def textLine (stamp : Stamp) (colour : Bool) (context : Fields) (r : LogRecord) : Except Fault Text := do
  let shown := contextKeys.filterMap fun k =>
    match context.value? k with
    | some .none | none => none
    | some v => some (k, v)
  let about ← fieldWords shown
  let extras ← fieldWords ((← r.shownExtras).filter fun e => !context.any (·.1 == e.1))
  let cell ← levelCell r.levelName
  let cell ← if colour then colouredCell r.level cell else pure cell
  let head := stamp.time ++ " | " ++ cell ++ " | " ++ (← r.logger.plainText)
  let head := if about.isEmpty then head else head ++ " | " ++ Text.join " " about
  let line := head ++ " | " ++ (← r.text stamp.room)
  let line := if extras.isEmpty then line else line ++ " " ++ Text.join " " extras
  match ← r.failure with
  | some failure => pure (line ++ "\n" ++ failure)
  | none => pure line

/-- A record in a format. -/
def line (stamp : Stamp) (format : LineFormat) (context : Fields) (r : LogRecord) : Except Fault Text :=
  match format with
  | .json => (jsonLine stamp context r).map Text.ofString
  | .text colour => textLine stamp colour context r

end LogRecord

end WordSlot
