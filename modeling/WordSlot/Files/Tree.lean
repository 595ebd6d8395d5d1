import WordSlot.Bytes
import WordSlot.Fault.Files
import WordSlot.Files.Path

/-!
# The file tree

Files and directories by location. A location is the list of names from the working directory on; one that starts at the root
has a slash as its first name, which no file can have. The working directory and the root are always there.
-/

namespace WordSlot

/-- What stands at a location. -/
inductive FileEntry where
  | file (content : Bytes)
  | directory
deriving DecidableEq

/-- A place in the tree. -/
abbrev Location := List Text

/-- The root. -/
def Location.root : Location := ["/"]

/-- Entries by location. -/
structure FileTree where
  entries : List (Location × FileEntry)
deriving DecidableEq

namespace FileTree

/-- The tree with nothing in it. -/
def empty : FileTree := ⟨[]⟩

/-- The entry at a location. -/
def get? (t : FileTree) (l : Location) : Option FileEntry :=
  if l = [] ∨ l = Location.root then some .directory else t.entries.lookup l

/-- Puts an entry at a location. -/
def put (t : FileTree) (l : Location) (e : FileEntry) : FileTree := ⟨(l, e) :: t.entries.filter (·.1 ≠ l)⟩

/-- Removes the entry at a location. -/
def erase (t : FileTree) (l : Location) : FileTree := ⟨t.entries.filter (·.1 ≠ l)⟩

/-- The longest name that an entry can have, in bytes. -/
def maxNameBytes : Nat := 255

/-- The number of bytes that a code point of a name takes. -/
def codeBytes (code : Nat) : Nat :=
  if code < 0x80 || Path.isByteHalf code then 1 else if code < 0x800 then 2 else if code < 0x10000 then 3 else 4

/-- The number of bytes of a name. -/
def nameBytes (name : Text) : Nat := name.codes.foldl (fun total code => total + codeBytes code) 0

/-- One step to a name inside the directory at a location. -/
def step (t : FileTree) (l : Location) (name : Text) : Except FileCause Location :=
  match t.get? l with
  | none => .error .notFound
  | some (.file _) => .error .notDirectory
  | some .directory =>
    if name = ".." then .ok (if l = Location.root then l else l.dropLast)
    else if maxNameBytes < nameBytes name then .error .nameTooLong
    else .ok (l ++ [name])

/-- The location that names lead to from another; all but the last have to be directories. -/
def walk (t : FileTree) : Location → List Text → Except FileCause Location
  | l, [] => .ok l
  | l, name :: rest =>
    match t.step l name with
    | .ok l => t.walk l rest
    | .error c => .error c

/-- Where a path starts. -/
def start (p : Path) : Location :=
  match p.anchor with
  | .here => []
  | _ => .root

/-- The location of a path. -/
def locate (t : FileTree) (p : Path) : Except FileCause Location := t.walk (start p) p.names

/-- The entry at a path. -/
def find (t : FileTree) (p : Path) : Except FileCause FileEntry :=
  match t.locate p with
  | .error c => .error c
  | .ok l =>
    match t.get? l with
    | some e => .ok e
    | none => .error .notFound

/-- The content of the file at a path. -/
def read (t : FileTree) (p : Path) : Except FileCause Bytes :=
  match t.find p with
  | .ok (.file content) => .ok content
  | .ok .directory => .error .isDirectory
  | .error c => .error c

/-- Whether there is anything at a path; only a name that is too long keeps that from being answered. -/
def has (t : FileTree) (p : Path) : Except FileCause Bool :=
  match t.find p with
  | .ok _ => .ok true
  | .error .nameTooLong => .error .nameTooLong
  | .error _ => .ok false

/-- Whether there is a directory at a path. -/
def isDirectory (t : FileTree) (p : Path) : Bool :=
  match t.find p with
  | .ok .directory => true
  | _ => false

/-- Makes a directory where there is nothing. -/
def makeDirectory (t : FileTree) (p : Path) : Except FileCause FileTree :=
  match t.locate p with
  | .error c => .error c
  | .ok l => if (t.get? l).isSome then .error .exists else .ok (t.put l .directory)

/-- Makes a directory unless it is there. -/
def ensureDirectory (t : FileTree) (p : Path) : Except FileCause FileTree :=
  match t.makeDirectory p with
  | .ok t => .ok t
  | .error .notFound => .error .notFound
  | .error c => if t.isDirectory p then .ok t else .error c

/-- Makes a directory and, where they are missing, those above it; what was made stays made when a later one fails. The first
argument is the number of directories above. -/
def ensureDirectories : Nat → FileTree → Path → Except FileFault Unit × FileTree
  | above, t, p =>
    match t.ensureDirectory p with
    | .ok t => (.ok (), t)
    | .error .notFound =>
      match above with
      | 0 => (.error ⟨.notFound, p.text, none⟩, t)
      | above + 1 =>
        match ensureDirectories above t p.parent with
        | (.error f, t) => (.error f, t)
        | (.ok (), t) =>
          match t.ensureDirectory p with
          | .ok t => (.ok (), t)
          | .error c => (.error ⟨c, p.text, none⟩, t)
    | .error c => (.error ⟨c, p.text, none⟩, t)

/-- Makes the directory of a path and those above it. -/
def makeParents (t : FileTree) (p : Path) : Except FileFault Unit × FileTree :=
  ensureDirectories p.parent.names.length t p.parent

/-- Writes a file, new or not. -/
def write (t : FileTree) (p : Path) (content : Bytes) : Except FileCause FileTree :=
  match t.locate p with
  | .error c => .error c
  | .ok l =>
    match t.get? l with
    | some .directory => .error .isDirectory
    | _ => .ok (t.put l (.file content))

/-- Adds to the end of a file that is there; nothing happens if it is not. -/
def append (t : FileTree) (p : Path) (more : Bytes) : FileTree :=
  match t.locate p with
  | .error _ => t
  | .ok l =>
    match t.get? l with
    | some (.file content) => t.put l (.file (content ++ more))
    | _ => t

/-- Whether a location lies below another. -/
def isBelow (l above : Location) : Bool := above.isPrefixOf l && above.length < l.length

/-- Removes a file or an empty directory. -/
def remove (t : FileTree) (p : Path) : Except FileCause FileTree :=
  match t.locate p with
  | .error c => .error c
  | .ok l =>
    match t.get? l with
    | none => .error .notFound
    | some (.file _) => .ok (t.erase l)
    | some .directory => if t.entries.any fun e => isBelow e.1 l then .error .notEmpty else .ok (t.erase l)

/-- The texts of everything below the working directory in ascending order; directories end in a slash. -/
def listing (t : FileTree) : List Text :=
  let shown := t.entries.filterMap fun (l, e) =>
    if l.head? = some ("/" : Text) then none
    else
      let text := Text.join "/" l
      some (match e with
        | .directory => text ++ "/"
        | .file _ => text)
  shown.mergeSort Text.notAfter

end FileTree

end WordSlot
