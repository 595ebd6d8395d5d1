import WordSlot.Fault

/-!
# The log context

Fields that go into every log line until they are unbound. Values are made fit for the log when they are bound. A trace scope
binds a trace id and, on leaving, brings back the context that was there before.
-/

namespace WordSlot

/-- Named values in order. -/
abbrev Fields := List (Text × Value)

namespace Fields

/-- The value of a field. -/
def value? (key : Text) (fields : Fields) : Option Value := fields.lookup key

/-- Sets a field; one that is there keeps its place. -/
def put (key : Text) (value : Value) : Fields → Fields
  | [] => [(key, value)]
  | (k, v) :: rest => if k = key then (k, value) :: rest else (k, v) :: put key value rest

/-- Sets fields one after another. -/
def putAll (fields more : Fields) : Fields := more.foldl (fun acc e => put e.1 e.2 acc) fields

/-- Adds a field unless it is there. -/
def add (key : Text) (value : Value) (fields : Fields) : Fields :=
  if fields.any (·.1 == key) then fields else fields ++ [(key, value)]

/-- Adds fields one after another, each unless it is there. -/
def addAll (fields more : Fields) : Fields := more.foldl (fun acc e => add e.1 e.2 acc) fields

/-- Removes a field. -/
def drop (key : Text) (fields : Fields) : Fields := fields.filter (·.1 != key)

end Fields

/-- A value as the log shows it: numbers that a double cannot hold exactly as text, bytes as hex, other kinds without a JSON
form as their text. -/
def loggable : Value → Except Fault Value
  | .int n => if n.natAbs < Nat.pow 2 53 then pure (.int n) else do pure (.text (← Value.decimalText n))
  | .bytes b | .buffer b => pure (.text (hexMarked b))
  | .path p => pure (.text p.text)
  | .tuple items => do pure (.text (← (Value.tuple items).plainText))
  | .type t => pure (.text t.name)
  | v => pure v

/-- Fields with loggable values. -/
def loggableAll : Fields → Except Fault Fields
  | [] => pure []
  | (k, v) :: rest => do
    let v ← loggable v
    let rest ← loggableAll rest
    pure ((k, v) :: rest)

/-- The context, with those to come back to when scopes are left, innermost first. -/
structure LogContext where
  fields : Fields
  outer : List Fields

namespace LogContext

/-- No fields, no scopes. -/
def empty : LogContext := ⟨[], []⟩

/-- Binds fields. -/
def bind (c : LogContext) (fields : Fields) : Except Fault LogContext := do
  pure { c with fields := c.fields.putAll (← loggableAll fields) }

/-- Unbinds keys. -/
def unbind (c : LogContext) (keys : List Text) : LogContext :=
  { c with fields := keys.foldl (fun acc k => acc.drop k) c.fields }

/-- Unbinds everything. -/
def clear (c : LogContext) : LogContext := { c with fields := [] }

/-- The trace id of a scope: the one given, or a new one if that is empty. -/
def traceId (fresh : Text) (given : Value) : Value := if given.holds then given else .text fresh

/-- Enters a scope with a trace id. -/
def enter (c : LogContext) (id : Value) : Except Fault LogContext := do
  let bound ← c.bind [("trace_id", id)]
  pure ⟨bound.fields, c.fields :: c.outer⟩

/-- Leaves the innermost scope. -/
def leave (c : LogContext) : LogContext :=
  match c.outer with
  | [] => c
  | fields :: outer => ⟨fields, outer⟩

end LogContext

end WordSlot
