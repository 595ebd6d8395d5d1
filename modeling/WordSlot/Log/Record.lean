import WordSlot.Log.Context
import WordSlot.Log.Level
import WordSlot.Text.Template

/-!
# Log records

What is logged: who says it, how important it is, a message with arguments, and extra fields. Some names belong to the record
itself and cannot be extra fields.
-/

namespace WordSlot

/-- A record of the log. -/
structure LogRecord where
  logger : Value
  levelName : Value
  level : Value
  message : Value
  args : Value
  extras : Fields
  /-- The text of an exception that came with the record; a misuse if there is something else in its place. -/
  failure : Except Fault (Option Text)

namespace LogRecord

/-- The names of a record's own attributes, none of which is shown as an extra field. -/
def reserved : List Text :=
  ["name", "msg", "args", "levelname", "levelno", "pathname", "filename", "module", "exc_info", "exc_text", "stack_info",
   "lineno", "funcName", "created", "msecs", "relativeCreated", "thread", "threadName", "processName", "process", "taskName",
   "message", "asctime"]

/-- The names that an extra field cannot have. -/
def taken : List Text := reserved.filter (· != "taskName")

/-- The arguments of a message: a single dictionary with entries is what its keys are looked up in. -/
def argumentsOf : List Value → Value
  | [.dict (e :: es)] => .dict (e :: es)
  | args => .tuple args

/-- A record without extra fields. -/
def make (logger : Text) (level : Int) (message : Value) (args : List Value) : Except Fault LogRecord := do
  let levelName ← LogLevel.name level
  pure { logger := .text logger, levelName := .text levelName, level := .int level, message, args := argumentsOf args,
         extras := [], failure := .ok none }

/-- The text of an exception by a value in its place: a value that holds gives its kind, itself and its trace, or itself alone,
and is no exception unless it is nothing. -/
def failureOf (value : Value) : Except Fault (Option Text) := do
  if !value.holds then pure none
  else match ← value.parts with
    | [.none] | [_, .none, .none] => pure (some "NoneType: None")
    | [_, _] => throw (.misuse .wrongValue)
    | [_, _, _] => throw (.misuse .missingField)
    | _ => throw (.misuse .wrongKind)

/-- Sets an attribute of a record. -/
def set (r : LogRecord) (name : Text) (value : Value) : LogRecord :=
  match name.string? with
  | some "name" => { r with logger := value }
  | some "msg" => { r with message := value }
  | some "args" => { r with args := value }
  | some "levelname" => { r with levelName := value }
  | some "levelno" => { r with level := value }
  | some "exc_info" => { r with failure := failureOf value }
  | _ => if reserved.contains name then r else { r with extras := r.extras.put name value }

/-- The text of an exception by its kind and message, without blanks at its end. -/
def failureText (kind message : Text) : Text :=
  (if message.isEmpty then kind else kind ++ ": " ++ message).stripEnd

/-- A record that an exception came with. -/
def withFailure (r : LogRecord) (kind message : Text) : LogRecord :=
  { r with failure := .ok (some (failureText kind message)) }

/-- Adds extra fields, none of which may have a name that is taken. -/
def withExtras (r : LogRecord) (extras : Fields) : Except Fault LogRecord :=
  if extras.any fun e => taken.contains e.1 then throw (.misuse .missingKey)
  else pure (extras.foldl (fun r e => r.set e.1 e.2) r)

/-- The message with its arguments filled in, as far as there is room. -/
def text (room : Nat) (r : LogRecord) : Except Fault Text := do
  let message ← r.message.plainText
  if r.args.holds then fillTemplate room message r.args else pure message

/-- The extra fields that are shown: those whose name does not start with an underscore. -/
def shownExtras (r : LogRecord) : Except Fault Fields :=
  loggableAll (r.extras.filter fun e => e.1.codes.head? != some '_'.toNat && !reserved.contains e.1)

end LogRecord

end WordSlot
