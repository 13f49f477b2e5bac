/-
  All files that can be reached, as a value.

  A `FileTree` is the outermost folder together with the place of the folder that relative paths start from.  A path is first
  resolved to the names that lead to its entry (`locate`): an empty name and `.` stay in place, `..` goes back up, but not
  above the outermost folder, and every name that a path goes through must be a folder.  A path that ends in a slash can only
  mean a folder.  All operations then work on names.

  Some files in the folder `dev` are devices: what is written to them is kept nowhere.

  In `FileTree.ofFolder d` a path that is just a name, `t.write name` for instance, comes down to `Folder.put` and its kin.
-/
import SeedCorpus.Folder.Basic
import SeedCorpus.Folder.Path

namespace SeedCorpus

/-! ## Names that lead to entries -/

namespace Folder

/-- The entry that names lead to, one after the other. -/
def entryAt (d : Folder) (parts : List String) : Except FileError Entry :=
  match parts with
  | [] => .ok (.folder d)
  | name :: rest =>
    if Path.maxNameBytes < name.utf8ByteSize then .error .nameTooLong
    else
      match get? d name with
      | none => .error .notFound
      | some (.folder sub) => entryAt sub rest
      | some (.file content) => if rest.isEmpty then .ok (.file content) else .error .notFolder

/-- The folder that names lead to. -/
def folderAt (d : Folder) (parts : List String) : Except FileError Folder :=
  match entryAt d parts with
  | .ok (.folder sub) => .ok sub
  | .ok (.file _) => .error .notFolder
  | .error e => .error e

/-- The names that remain when `.` and `..` are followed; `above` are those gone through already. -/
def walk (d : Folder) (above : List String) : List String → Except FileError (List String)
  | [] => .ok above
  | name :: rest =>
    if name = "" then walk d above rest
    else if name = "." ∨ name = ".." then
      match folderAt d above with
      | .ok _ => walk d (if name = "." then above else above.dropLast) rest
      | .error e => .error e
    else walk d (above ++ [name]) rest

end Folder

/-! ## Devices -/

/-- A file that is none. -/
inductive Device where
  /-- Nothing can be read from it, and everything written to it is lost. -/
  | empty
  /-- Zeros without end can be read from it, and everything written to it is lost. -/
  | zeros
  /-- Zeros without end can be read from it, and nothing can be written to it. -/
  | full
  /-- What a program reads. -/
  | input
  /-- What a program prints. -/
  | output
  /-- What a program complains about. -/
  | errors
deriving DecidableEq, Repr, Inhabited

/-- The devices by their names. -/
def Device.byName : List (String × Device) :=
  [("null", empty), ("zero", zeros), ("full", full), ("stdin", input), ("stdout", output), ("stderr", errors)]

/-- The device that names lead to. -/
def Device.at? : List String → Option Device
  | ["dev", name] => byName.lookup name
  | _ => none

/-! ## Trees -/

/-- All files that can be reached, and the folder that relative paths start from. -/
structure FileTree where
  /-- The outermost folder. -/
  root : Folder
  /-- The names that lead to the folder that relative paths start from. -/
  here : List String := []
deriving Inhabited

/-- Where a path leads: the names on the way, and whether it can only mean a folder. -/
structure Location where
  /-- The names, from the outermost folder on. -/
  parts : List String
  /-- Whether the path ends in a slash or in a name that is not one. -/
  folderOnly : Bool
deriving DecidableEq, Repr, Inhabited

namespace FileTree

/-- A folder as the outermost one, with paths that start there. -/
def ofFolder (d : Folder) : FileTree := { root := d }

/-- The place that a path leads to. -/
def locate (t : FileTree) (path : String) : Except FileError Location :=
  if path.toList.contains (Char.ofNat 0) then .error .nulInName
  else if path.isEmpty then .error .notFound
  else if Path.maxBytes < path.utf8ByteSize then .error .nameTooLong
  else
    let names := Path.names path
    match t.root.walk (if Path.isAbsolute path then [] else t.here) names with
    | .ok parts => .ok { parts, folderOnly := ["", ".", ".."].contains (names.getLast?.getD "") }
    | .error e => .error e

/-- The entry that a place stands for. -/
def entryOf (t : FileTree) (place : Location) : Except FileError Entry := do
  let entry ← t.root.entryAt place.parts
  if place.folderOnly && entry.isFile then .error .notFolder else .ok entry

/-- The entry that a path leads to. -/
def find (t : FileTree) (path : String) : Except FileError Entry := do t.entryOf (← t.locate path)

/-- Whether a path leads to an entry. -/
def hasEntry (t : FileTree) (path : String) : Bool := (t.find path).isOk

/-- The folder that a path leads to. -/
def findFolder (t : FileTree) (path : String) : Except FileError Folder := do
  match ← t.find path with
  | .folder sub => .ok sub
  | .file _ => .error .notFolder

/-- The device that a path leads to. -/
def device? (t : FileTree) (path : String) : Option Device := do
  let place ← (t.locate path).toOption
  if (t.entryOf place).isOk then Device.at? place.parts else none

/-- The names on the way to the last name of a place, and that name. -/
def parentOf (t : FileTree) (place : Location) : Except FileError (List String × String) :=
  match place.parts.getLast? with
  | none => .error .isFolder
  | some name => do
    let _ ← t.root.folderAt place.parts.dropLast
    if Path.maxNameBytes < name.utf8ByteSize then .error .nameTooLong
    else .ok (place.parts.dropLast, name)

/-- The tree with a name in a folder standing for an entry. -/
def put (t : FileTree) (parents : List String) (name : String) (entry : Entry) : FileTree :=
  { t with root := t.root.modifyAt parents (Folder.put · name entry) }

/-- The tree without a name in a folder. -/
def erase (t : FileTree) (parents : List String) (name : String) : FileTree :=
  { t with root := t.root.modifyAt parents (Folder.erase · name) }

/-! ## Reading and changing files -/

/-- The bytes of the file that a path leads to. -/
def read (t : FileTree) (path : String) : Except FileError ByteArray := do
  let place ← t.locate path
  match ← t.entryOf place with
  | .file content => .ok (if (Device.at? place.parts).isSome then .empty else content)
  | .folder _ => .error .isFolder

/-- Writes a file, in place of what it held before. -/
def write (t : FileTree) (path : String) (content : ByteArray) : Except FileError FileTree := do
  let place ← t.locate path
  let (parents, name) ← t.parentOf place
  if place.folderOnly then .error .isFolder
  else
    match t.root.entryAt place.parts with
    | .ok (.folder _) => .error .isFolder
    | _ =>
      match Device.at? place.parts with
      | some .full => if content.isEmpty then .ok t else .error .noSpace
      | some _ => .ok t
      | none => .ok (t.put parents name (.file content))

/-- Makes an empty folder. -/
def makeFolder (t : FileTree) (path : String) : Except FileError FileTree := do
  let place ← t.locate path
  if (t.root.entryAt place.parts).isOk then .error .taken
  else
    let (parents, name) ← t.parentOf place
    .ok (t.put parents name (.folder []))

/-- Removes a file. -/
def remove (t : FileTree) (path : String) : Except FileError FileTree := do
  let place ← t.locate path
  match ← t.entryOf place with
  | .folder _ => .error .isFolder
  | .file _ =>
    let (parents, name) ← t.parentOf place
    .ok (t.erase parents name)

/-- Removes a folder that is empty. -/
def removeFolder (t : FileTree) (path : String) : Except FileError FileTree := do
  let place ← t.locate path
  match ← t.entryOf place with
  | .file _ => .error .notFolder
  | .folder [] =>
    let (parents, name) ← t.parentOf place
    .ok (t.erase parents name)
  | .folder (_ :: _) => .error .notEmpty

/-- Whether an entry may take the name of another. -/
def mayReplace : Entry → Entry → Except FileError Unit
  | .file _, .file _ => .ok ()
  | .file _, .folder _ => .error .isFolder
  | .folder _, .file _ => .error .notFolder
  | .folder _, .folder entries => if entries.isEmpty then .ok () else .error .notEmpty

/-- Gives an entry another path. What has that path gives way, but a folder only if it is empty. -/
def rename (t : FileTree) (path newPath : String) : Except FileError FileTree := do
  let place ← t.locate path
  let newPlace ← t.locate newPath
  let entry ← t.entryOf place
  let (parents, name) ← t.parentOf place
  let (newParents, newName) ← t.parentOf newPlace
  if newPlace.folderOnly && entry.isFile then .error .notFolder
  else if place.parts = newPlace.parts then .ok t
  else if place.parts.isPrefixOf newPlace.parts then .error .invalid
  else
    match t.root.entryAt newPlace.parts with
    | .ok other => mayReplace entry other
    | .error _ => .ok ()
    .ok ((t.erase parents name).put newParents newName entry)

end FileTree

end SeedCorpus
