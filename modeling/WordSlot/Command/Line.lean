import WordSlot.Text

/-!
# Command lines

A command line is global options, a command, and the command's arguments. An option's value follows it or stands behind an
equals sign, the last of several counts, and `--` ends the options. Whatever does not fit is answered by the usage page.
-/

namespace WordSlot

/-- What a command line asks for instead of a command: the help page, or the page that says how a command is used. -/
inductive Page where
  | help
  | usage
deriving DecidableEq

/-- The commands. -/
inductive CommandName where
  | get
  | set
  | call
  | abi
  | info
deriving DecidableEq

namespace CommandName

/-- The command of a word. -/
def ofString? : String → Option CommandName
  | "get" => some .get
  | "set" => some .set
  | "call" => some .call
  | "abi" => some .abi
  | "info" => some .info
  | _ => none

/-- The command that a word names. -/
def ofWord? (word : Text) : Option CommandName := word.string?.bind ofString?

/-- The number of arguments that a command takes. -/
def arity : CommandName → Nat
  | .set | .call => 1
  | _ => 0

end CommandName

/-- The global options as given. -/
structure GlobalOptions where
  state : Option Text
  json : Bool
  logLevel : Option Text
  help : Bool
deriving DecidableEq

namespace CommandLine

/-- A word that is an option: it starts with a dash and has more to it. -/
def isOption (word : Text) : Bool :=
  match word.codes with
  | 0x2d :: _ :: _ => true
  | _ => false

/-- The name of an option and the value behind its equals sign. -/
def splitOption (word : Text) : Option String × Option Text :=
  let name := word.codes.takeWhile (· != '='.toNat)
  match word.codes.drop name.length with
  | _ :: value => (Text.string? ⟨name⟩, some ⟨value⟩)
  | [] => (word.string?, none)

/-- Reads the global options up to the first word that is none and gives the words from there on; `fuel` bounds the number of
words. -/
def readGlobal : Nat → GlobalOptions → List Text → Except Page (GlobalOptions × List Text)
  | 0, options, words => .ok (options, words)
  | _ + 1, options, [] => .ok (options, [])
  | fuel + 1, options, word :: rest =>
    if word == "--" then .ok (options, rest)
    else if !isOption word then .ok (options, word :: rest)
    else
      match splitOption word, rest with
      | (some "--state", some value), rest => readGlobal fuel { options with state := some value } rest
      | (some "--state", none), value :: rest => readGlobal fuel { options with state := some value } rest
      | (some "--log-level", some value), rest => readGlobal fuel { options with logLevel := some value } rest
      | (some "--log-level", none), value :: rest => readGlobal fuel { options with logLevel := some value } rest
      | (some "--json", none), rest => readGlobal fuel { options with json := true } rest
      | (some "--help", none), rest => readGlobal fuel { options with help := true } rest
      | _, _ => .error .usage

/-- Reads a command's words: options may stand anywhere before `--`, and the only one is the help option. -/
def readWords : List Text → Except Page (Bool × List Text)
  | [] => .ok (false, [])
  | word :: rest =>
    if word == "--" then .ok (false, rest)
    else if !isOption word then (readWords rest).map fun (help, words) => (help, word :: words)
    else if word == "--help" then (readWords rest).map fun (_, words) => (true, words)
    else .error .usage

/-- The arguments of a command. -/
def readArguments (command : CommandName) (words : List Text) : Except Page (List Text) :=
  match readWords words with
  | .error page => .error page
  | .ok (true, _) => .error .help
  | .ok (false, arguments) => if arguments.length = command.arity then .ok arguments else .error .usage

/-- No options. -/
def noOptions : GlobalOptions := ⟨none, false, none, false⟩

/-- The global options and the words from the command on. -/
def readOptions (words : List Text) : Except Page (GlobalOptions × List Text) :=
  match readGlobal words.length noOptions words with
  | .error page => .error page
  | .ok (options, rest) => if options.help then .error .help else .ok (options, rest)

/-- The command with its words. A word that looks like an option but stands where the command is due is read as one more
option, so that help can still be asked for. -/
def readCommand : List Text → Except Page (CommandName × List Text)
  | [] => .error .usage
  | word :: rest =>
    match CommandName.ofWord? word with
    | some command => .ok (command, rest)
    | none =>
      if isOption word then
        match readGlobal (rest.length + 1) noOptions (word :: rest) with
        | .error page => .error page
        | .ok (options, _) => .error (if options.help then .help else .usage)
      else .error .usage

end CommandLine

end WordSlot
