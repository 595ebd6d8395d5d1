import WordSlot.Json.Reader
import WordSlot.Json.Writer
import WordSlot.Storage.Slots
import WordSlot.Text.Utf8
import WordSlot.Word

/-!
# State files

A state file is a JSON object with a version and an object of slots, each a marked hex key with a marked hex value. It is
written with its keys in ascending order, two blanks per level and a line feed at the end, so that equal slots give equal
files. Reading is more liberal: hex of either case, blanks between byte pairs, more members, any order.
-/

namespace WordSlot

namespace StateFile

/-- The version that is written and read. -/
def version : Int := 1

/-- The document of slots, in ascending order of their keys. -/
def document (s : Slots) : Value :=
  .record [("slots", .record (s.sorted.map fun e => (↑(hexMarked e.1), .text (hexMarked e.2)))), ("version", .int version)]

/-- The text of slots, with every name in ascending order; a document of text and a small number can always be written. -/
def render (s : Slots) : List Char :=
  match Json.write .lines (document s).sortKeys with
  | .ok text => text.toList ++ ['\n']
  | .error _ => []

/-- The bytes of a state file with the given slots. -/
def encode (s : Slots) : Bytes := Utf8.encode (render s)

/-- Line breaks of all three kinds as line feeds. -/
def unifyLines : List Char → List Char
  | [] => []
  | '\r' :: '\n' :: rest => '\n' :: unifyLines rest
  | '\r' :: rest => '\n' :: unifyLines rest
  | c :: rest => c :: unifyLines rest

/-- The bytes of a marked hex text. -/
def readPart (part : SlotPart) : Value → Except StateFileCause Bytes
  | .text t =>
    match t.codes with
    | 0x30 :: 0x78 :: digits =>
      match (Text.chars? ⟨digits⟩).bind readHex with
      | some b => .ok b
      | none => .error (.badHex part)
    | _ => .error (.notMarkedHex part)
  | _ => .error (.notMarkedHex part)

/-- The text of a key. -/
def keyText : Value → Text
  | .text t => t
  | _ => .empty

/-- Reads the members of the slots object in turn; of two that spell one key the later value counts. -/
def readSlots (slots : Slots) : List (Value × Value) → Except StateFileCause Slots
  | [] => .ok slots
  | (k, v) :: rest => do
    let key ← readPart .key k
    let value ← readPart .value v
    if key.isEmpty then throw .keyEmpty
    else if wordBytes < value.length then throw (.valueTooLarge (keyText k) value.length)
    else readSlots (slots.put key value) rest

/-- The slots of a document. -/
def ofDocument : Value → Except StateFileCause Slots
  | .dict members =>
    let found := (Value.field? "version" members).getD .none
    if !found.same (.int version) then
      -- A document's numbers have a bounded number of digits, so the version has a text.
      throw (.badVersion (found.quoted?.getD "") found)
    else match Value.field? "slots" members with
      | none => .ok []
      | some (.dict slots) => readSlots [] slots
      | some _ => throw .slotsNotObject
  | _ => throw .notObject

/-- The number of levels of lists and objects that are read. -/
def maxNesting : Nat := 985

/-- Why bytes do not give slots: they are nested beyond what is read, or they are no usable state file. -/
inductive Refusal where
  | tooDeep
  | unusable (cause : StateFileCause)

/-- The slots of a state file's bytes. -/
def decode (content : Bytes) : Except Refusal Slots :=
  match Utf8.decode content with
  | .error flaw => throw (.unusable (.unreadable flaw.text))
  | .ok cs =>
    match Json.read maxNesting (unifyLines cs) with
    | .error ⟨.tooDeep, _⟩ => throw .tooDeep
    | .error flaw => throw (.unusable (.unreadable (flaw.text (unifyLines cs))))
    | .ok v => (ofDocument v).mapError .unusable

end StateFile

end WordSlot
