import WordSlot.Fault
import WordSlot.Text.Upper

/-!
# Log levels

A level is a number; the usual ones have names. A name is read in any case and with blanks around it, and one that is not
known means the warning level.
-/

namespace WordSlot

namespace LogLevel

def debug : Int := 10
def info : Int := 20
def warning : Int := 30
def error : Int := 40
def critical : Int := 50

/-- The level of a name in capitals. -/
def namedString? : String → Option Int
  | "CRITICAL" | "FATAL" => some critical
  | "ERROR" => some error
  | "WARNING" | "WARN" => some warning
  | "INFO" => some info
  | "DEBUG" => some debug
  | "NOTSET" => some 0
  | _ => none

/-- The level of a text in capitals. -/
def named? (t : Text) : Option Int := t.string?.bind namedString?

/-- The name of a level; one without a name of its own is called by its number. -/
def name (level : Int) : Except Fault String :=
  if level = critical then pure "CRITICAL"
  else if level = error then pure "ERROR"
  else if level = warning then pure "WARNING"
  else if level = info then pure "INFO"
  else if level = debug then pure "DEBUG"
  else if level = 0 then pure "NOTSET"
  else do pure ("Level " ++ (← Value.decimalText level))

/-- The level that a value asks for: a number stands for itself, a text names it. A byte string names none. -/
def ofValue : Value → Except Fault Value
  | .int n => pure (.int n)
  | .bool b => pure (.bool b)
  | .text t => pure (.int ((named? t.strip.upper).getD warning))
  | .bytes _ => pure (.int warning)
  | .buffer _ => throw (.misuse .wrongKind)
  | _ => throw (.misuse .missingField)

end LogLevel

end WordSlot
