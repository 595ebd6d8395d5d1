import WordSlot.Files.Tree

/-!
# Replacing a file at once

A file is written by making its directory, writing a temporary file beside it and moving that over the old one, so that a
reader sees the old content or the new one. If a step fails, the temporary file is removed again.
-/

namespace WordSlot

/-- The steps of a replacement that a medium can refuse. -/
inductive FileStep where
  | makeDirectory
  | createTemporary
  | writeTemporary
  | moveOver
deriving DecidableEq

/-- The medium that holds a tree: the text of the working directory and the letters that tell temporary files apart, as
messages show them, and what it refuses on its own account and for which cause, whatever the tree is like. -/
structure Medium where
  directory : Text
  letters : Text
  refuses : FileStep → Option FileCause

/-- A medium that refuses nothing. -/
def Medium.sound (directory letters : Text) : Medium := ⟨directory, letters, fun _ => none⟩

namespace FileTree

/-- The directory of a path as it is shown when it is made absolute: `..` takes back the name before it. -/
def absoluteNames (names : List Text) : List Text :=
  names.foldl (fun (acc : List Text) (name : Text) => if name = ".." then acc.dropLast else acc ++ [name]) []

/-- The number of bytes that a temporary name adds: a point, eight letters, and the ending. -/
def temporaryBytes : Nat := 13

/-- The name of the temporary file beside a file. -/
def temporaryName (medium : Medium) (p : Path) : Text := p.name ++ "." ++ medium.letters ++ ".tmp"

/-- The temporary file beside a path as messages show it, from the root on. -/
def temporaryText (medium : Medium) (p : Path) : Text :=
  let names := absoluteNames p.parent.names ++ [temporaryName medium p]
  match p.anchor with
  | .here => medium.directory ++ "/" ++ Text.join "/" names
  | .root => "/" ++ Text.join "/" names
  | .doubleRoot => "//" ++ Text.join "/" names

/-- Makes an empty temporary file beside a path and gives its location. -/
def createTemporary (medium : Medium) (t : FileTree) (p : Path) : Except FileCause (Location × FileTree) :=
  match t.locate p.parent with
  | .error c => .error c
  | .ok l =>
    match t.get? l with
    | some .directory =>
      if maxNameBytes < nameBytes p.name + temporaryBytes then .error .nameTooLong
      else .ok (l ++ [temporaryName medium p], t.put (l ++ [temporaryName medium p]) (.file []))
    | some (.file _) => .error .notDirectory
    | none => .error .notFound

/-- Moves a file over what is at a path, which must not be a directory; a path that ends by going up cannot be moved over. -/
def moveOver (t : FileTree) (source : Location) (p : Path) : Except FileCause FileTree :=
  match t.locate p with
  | .error c => .error c
  | .ok l =>
    if p.name = ".." then .error .busy else
    match t.get? source, t.get? l with
    | _, some .directory => .error .isDirectory
    | some (.file content), _ => .ok ((t.erase source).put l (.file content))
    | _, _ => .error .notFound

/-- A step's result, unless the medium refuses the step. -/
def attempt {α : Type} (medium : Medium) (step : FileStep) (result : Except FileCause α) : Except FileCause α :=
  match medium.refuses step with
  | some c => .error c
  | none => result

/-- Makes the directory of a path and those above it, unless the medium refuses that. -/
def prepareParents (medium : Medium) (t : FileTree) (p : Path) : Except FileFault Unit × FileTree :=
  match medium.refuses .makeDirectory with
  | some c => (.error ⟨c, p.parent.text, none⟩, t)
  | none => t.makeParents p

/-- Replaces the content of the file at a path. -/
def replace (medium : Medium) (t : FileTree) (p : Path) (content : Bytes) : Except FileFault Unit × FileTree :=
  match t.prepareParents medium p with
  | (.error f, t) => (.error f, t)
  | (.ok (), t) =>
    match attempt medium .createTemporary (createTemporary medium t p) with
    | .error c => (.error ⟨c, temporaryText medium p, none⟩, t)
    | .ok (temporary, t) =>
      match attempt medium .writeTemporary (.ok (t.put temporary (.file content))) with
      | .error c => (.error ⟨c, temporaryText medium p, none⟩, t.erase temporary)
      | .ok t =>
        match attempt medium .moveOver (t.moveOver temporary p) with
        | .error c => (.error ⟨c, temporaryText medium p, some p.text⟩, t.erase temporary)
        | .ok t => (.ok (), t)

end FileTree

end WordSlot
