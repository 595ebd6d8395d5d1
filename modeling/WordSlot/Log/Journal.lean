import WordSlot.Config
import WordSlot.Log.Line

/-!
# The journal

Where log lines go. Until it is configured the journal writes nothing. It is configured with a level, a console stream and
perhaps a file; a new configuration takes the place of the old one. Lines come from loggers inside the package only, at or
above its level. A logger stands below the nearest one above it by name that is known, and is inside the package if going up
leads to the package's logger.
-/

namespace WordSlot

/-- Where a handler writes: to one of the console streams, by number, or to a file. -/
inductive Sink where
  | stream (index : Nat)
  | file (path : Path)
deriving DecidableEq

/-- A destination of lines at or above a level. -/
structure Handler where
  level : Int
  format : LineFormat
  sink : Sink
deriving DecidableEq

/-- The journal: its context, the package's level, its handlers, what was written to each console stream so far, the loggers
that were introduced to it, and which levels they were found to pass on since the last configuration. -/
structure Journal where
  context : LogContext
  level : Int
  handlers : List Handler
  streams : List (List Text)
  loggers : List Text
  decisions : List ((Text × Int) × Bool)

namespace Journal

/-- A journal that has not been configured. -/
def fresh : Journal := ⟨.empty, 0, [], [], [], []⟩

/-- The name of the package's logger, above all others. -/
def package : Text := "simple_storage"

/-- What stands before the points of a name, longest first and written backwards as the name is. Of two points side by side the
first does not count. -/
def beforePoints : List Nat → List (List Nat)
  | [] => []
  | [_] => []
  | code :: next :: rest => if code = '.'.toNat then (next :: rest) :: beforePoints rest else beforePoints (next :: rest)

/-- The names of the loggers that can stand above one, nearest first. -/
def above (logger : Text) : List Text := (beforePoints logger.codes.reverse).map fun name => ⟨name.reverse⟩

/-- The package's logger is known, and so are those that were introduced. -/
def knows (j : Journal) (logger : Text) : Bool := logger == package || j.loggers.contains logger

/-- Going up from a logger leads to the package's within `steps` steps. -/
def leadsToPackage (j : Journal) : Nat → Text → Bool
  | 0, _ => false
  | steps + 1, logger =>
    logger == package ||
      match (above logger).find? j.knows with
      | some parent => j.leadsToPackage steps parent
      | none => false

/-- A logger belongs to the package; each step up takes a character at least. -/
def inPackage (j : Journal) (logger : Text) : Bool := j.leadsToPackage (logger.length + 1) logger

/-- The least level that a logger passes on: the package's, where zero says nothing, or the warning level. -/
def threshold (j : Journal) (logger : Text) : Int :=
  if j.inPackage logger && j.level != 0 then j.level else LogLevel.warning

/-- Whether a logger passes on a level; one that is not above zero never is. -/
def passes (j : Journal) (logger : Text) (level : Int) : Bool := 0 < level && j.threshold logger ≤ level

/-- The handlers that a logger's records of a level reach. -/
def reached (j : Journal) (logger : Text) (level : Int) : List Handler :=
  if j.inPackage logger then j.handlers.filter (·.level ≤ level) else []

/-- Makes a logger known. -/
def introduce (j : Journal) (logger : Text) : Journal :=
  if j.loggers.contains logger then j else { j with loggers := logger :: j.loggers }

/-- What was found about a logger and a level, or is found now. -/
def decision (j : Journal) (logger : Text) (level : Int) : Bool :=
  (j.decisions.lookup (logger, level)).getD (j.passes logger level)

/-- Remembers what was found about a logger and a level. -/
def settle (j : Journal) (logger : Text) (level : Int) : Journal :=
  { j with decisions := ((logger, level), j.decision logger level) :: j.decisions }

/-- Adds a piece of text to a stream. -/
def write (j : Journal) (index : Nat) (text : Text) : Journal :=
  { j with streams := j.streams.modify index (· ++ [text]) }

/-- The number of the stream configured last. -/
def current (j : Journal) : Nat := j.streams.length - 1

/-- What was written to a stream. -/
def written (j : Journal) (index : Nat) : Text := ⟨(j.streams.getD index []).flatMap Text.codes⟩

/-- Forgets what was written to the stream configured last. -/
def drained (j : Journal) : Journal := { j with streams := j.streams.modify j.current fun _ => [] }

/-- The lines of the stream configured last, each ended by a line feed. -/
def lines (j : Journal) : List Text := ((j.written j.current).split '\n').dropLast

end Journal

/-- Lines can be coloured: the stream is a terminal and the environment does not speak against it. -/
def supportsColour (env : Environment) (terminal : Bool) : Bool := terminal && (env.get? "NO_COLOR").isNone

/-- Whether lines are JSON: as asked, else as the environment says, else unless they can be coloured. -/
def decideJson (env : Environment) (asked : Option Bool) (terminal : Bool) : Bool :=
  match asked, (env.get? (Config.settingName "LOG_FORMAT")).bind LogFormat.ofWord? with
  | some asked, _ => asked
  | none, some format => format == .json
  | none, none => !supportsColour env terminal

end WordSlot
