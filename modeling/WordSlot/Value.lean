import WordSlot.Abi.UIntType
import WordSlot.Decimal.Shortest
import WordSlot.Files.Path
import WordSlot.Text.Quoted

/-!
# Values

What a caller can hand over: the host takes values of any kind and has to say what is wrong with them, and the state file and
the log hold values too. Every value has a kind name and two texts, a plain one and a quoted one.
-/

namespace WordSlot

/-- A value of any kind. -/
inductive Value where
  | none
  | bool (b : Bool)
  | int (n : Int)
  | real (x : Double)
  | text (t : Text)
  | bytes (b : Bytes)
  /-- Bytes that could be changed in place. -/
  | buffer (b : Bytes)
  | path (p : Path)
  | type (t : UIntType)
  | tuple (items : List Value)
  | list (items : List Value)
  | dict (entries : List (Value × Value))

instance : Inhabited Value := ⟨.none⟩

namespace Value

/-- The name of a value's kind. -/
def kind : Value → String
  | .none => "NoneType"
  | .bool _ => "bool"
  | .int _ => "int"
  | .real _ => "float"
  | .text _ => "str"
  | .bytes _ => "bytes"
  | .buffer _ => "bytearray"
  | .path _ => "PosixPath"
  | .type _ => "UIntType"
  | .tuple _ => "tuple"
  | .list _ => "list"
  | .dict _ => "dict"

/-- A number with the texts of both truth values taken as numbers. -/
def toInt? : Value → Option Int
  | .int n => some n
  | .bool b => some (if b then 1 else 0)
  | _ => Option.none

/-- The bytes of a byte string of either kind. -/
def toBytes? : Value → Option Bytes
  | .bytes b | .buffer b => some b
  | _ => Option.none

/-- Empty things, zeros, false and nothing do not hold. -/
def holds : Value → Bool
  | .none => false
  | .bool b => b
  | .int n => n != 0
  | .real x => !x.isZero
  | .text t => !t.isEmpty
  | .bytes b | .buffer b => !b.isEmpty
  | .path _ | .type _ => true
  | .tuple items | .list items => !items.isEmpty
  | .dict entries => !entries.isEmpty

/-- What iterating over a value yields: characters, byte values, items or keys; `none` for a value that has no parts. -/
def parts? : Value → Option (List Value)
  | .text t => some (t.codes.map fun code => .text ⟨[code]⟩)
  | .bytes b | .buffer b => some (b.map fun x => .int x.toNat)
  | .tuple items | .list items => some items
  | .dict entries => some (entries.map (·.1))
  | _ => Option.none

mutual

/-- Equality of values: truth values count as numbers, whole doubles equal the number they are, and both kinds of byte string
compare by content. -/
def same : Value → Value → Bool
  | .none, .none => true
  | .real x, .real y => (x == y && x.magnitude != .notANumber) || (x.isZero && y.isZero)
  | .real x, .int n => x.toInt? == some n
  | .real x, .bool b => x.toInt? == some (if b then 1 else 0)
  | .int n, .real x => x.toInt? == some n
  | .bool b, .real x => x.toInt? == some (if b then 1 else 0)
  | .text s, .text t => s == t
  | .path p, .path q => p == q
  | .type s, .type t => s == t
  | .tuple xs, .tuple ys => sameItems xs ys
  | .list xs, .list ys => sameItems xs ys
  | .bytes a, .bytes b => a == b
  | .bytes a, .buffer b => a == b
  | .buffer a, .bytes b => a == b
  | .buffer a, .buffer b => a == b
  | .bool a, .bool b => a == b
  | .int m, .int n => m == n
  | .int m, .bool b => m == if b then 1 else 0
  | .bool a, .int n => n == if a then 1 else 0
  | _, _ => false

/-- Equality item by item. -/
def sameItems : List Value → List Value → Bool
  | [], [] => true
  | x :: xs, y :: ys => same x y && sameItems xs ys
  | _, _ => false

end

mutual

/-- Whether a value can be looked up by: anything that cannot be changed in place. -/
def canIndex : Value → Bool
  | .buffer _ | .list _ | .dict _ => false
  | .tuple items => canIndexAll items
  | _ => true

/-- Whether every item can be looked up by. -/
def canIndexAll : List Value → Bool
  | [] => true
  | x :: xs => canIndex x && canIndexAll xs

end

/-- The entry under a key. -/
def lookup? (key : Value) : List (Value × Value) → Option Value
  | [] => Option.none
  | (k, v) :: rest => if same k key then some v else lookup? key rest

/-- The entry under a text key. -/
def field? (key : Text) (entries : List (Value × Value)) : Option Value := lookup? (.text key) entries

/-- Puts a value under a key: an equal key keeps its place and its spelling. -/
def insert (key value : Value) : List (Value × Value) → List (Value × Value)
  | [] => [(key, value)]
  | (k, v) :: rest => if same k key then (k, value) :: rest else (k, v) :: insert key value rest

/-- Entries put in one after another. -/
def ofEntries (entries : List (Value × Value)) : List (Value × Value) :=
  entries.foldl (fun acc e => insert e.1 e.2 acc) []

/-- A dictionary with text keys. -/
def record (fields : List (Text × Value)) : Value := .dict (fields.map fun f => (.text f.1, f.2))

mutual

/-- Quoted text of a value, the form in which containers show their items; `none` if a number in it has too many digits. -/
def quoted? : Value → Option String
  | .none => some "None"
  | .bool b => some (if b then "True" else "False")
  | .int n => decimal? n
  | .real x => some x.text
  | .text t => some (quote t)
  | .bytes b => some (quoteBytes b)
  | .buffer b => some (quoteBuffer b)
  | .path p => some ("PosixPath(" ++ quote p.text ++ ")")
  | .type t => some ("UIntType(bits=" ++ decimalNat t.bits ++ ")")
  | .tuple items =>
    match quotedItems? items with
    | some [one] => some ("(" ++ one ++ ",)")
    | some texts => some ("(" ++ ", ".intercalate texts ++ ")")
    | Option.none => Option.none
  | .list items =>
    match quotedItems? items with
    | some texts => some ("[" ++ ", ".intercalate texts ++ "]")
    | Option.none => Option.none
  | .dict entries =>
    match quotedEntries? entries with
    | some texts => some ("\x7b" ++ ", ".intercalate texts ++ "\x7d")
    | Option.none => Option.none

/-- Quoted texts of items. -/
def quotedItems? : List Value → Option (List String)
  | [] => some []
  | x :: xs =>
    match quoted? x, quotedItems? xs with
    | some t, some ts => some (t :: ts)
    | _, _ => Option.none

/-- Quoted texts of entries. -/
def quotedEntries? : List (Value × Value) → Option (List String)
  | [] => some []
  | (k, v) :: rest =>
    match quoted? k, quoted? v, quotedEntries? rest with
    | some a, some b, some ts => some ((a ++ ": " ++ b) :: ts)
    | _, _, _ => Option.none

end

/-- Plain text of a value: text, paths and types stand for themselves, the rest is quoted. -/
def plain? : Value → Option Text
  | .text t => some t
  | .path p => some p.text
  | .type t => some t.name
  | v => (quoted? v).map Text.ofString

end Value

end WordSlot
