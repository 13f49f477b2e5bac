/-
  A folder as a value.

  A `Folder` holds entries under distinct names; an entry is a file with its bytes or a folder again.  Work on a real
  folder is a function from folders to folders, so what it keeps, renames or removes can be stated.  The one view is
  `get?`: two folders are the same for every purpose when they answer `get?` alike, and the order of the entries in the
  list means nothing.
-/
import SeedCorpus.Instances

namespace SeedCorpus

/-- Why an operation on files failed. -/
inductive FileError where
  /-- Nothing has the name. -/
  | notFound
  /-- A file stands where a folder is needed. -/
  | notFolder
  /-- A folder stands where a file is needed. -/
  | isFolder
  /-- The entry may not be used in this way. -/
  | denied
  /-- Something has the name already. -/
  | taken
  /-- A folder still holds entries. -/
  | notEmpty
  /-- A folder would come to lie in itself, or a word cannot be handed over. -/
  | invalid
  /-- The device takes no more. -/
  | noSpace
  /-- A name has more than 255 bytes, or a path more than 4095. -/
  | nameTooLong
  /-- A word that is handed over is too long. -/
  | wordTooLong
  /-- A name holds the character that ends names. -/
  | nulInName
deriving DecidableEq, Repr

/-- The text of the cause. -/
def FileError.reason : FileError → String
  | .notFound => "No such file or directory"
  | .notFolder => "Not a directory"
  | .isFolder => "Is a directory"
  | .denied => "Permission denied"
  | .taken => "File exists"
  | .notEmpty => "Directory not empty"
  | .invalid => "Invalid argument"
  | .noSpace => "No space left on device"
  | .wordTooLong => "Argument list too long"
  | .nameTooLong => "File name too long"
  | .nulInName => "file name contained an unexpected NUL byte"

/-- The number of the cause, if it has one. -/
def FileError.number? : FileError → Option Nat
  | .notFound => some 2
  | .notFolder => some 20
  | .isFolder => some 21
  | .denied => some 13
  | .taken => some 17
  | .notEmpty => some 39
  | .invalid => some 22
  | .noSpace => some 28
  | .wordTooLong => some 7
  | .nameTooLong => some 36
  | .nulInName => none

/-- The text of the cause, with its number if it has one. -/
def FileError.message (e : FileError) : String :=
  match e.number? with
  | some n => e.reason ++ " (os error " ++ toString n ++ ")"
  | none => e.reason

/-- What a name in a folder stands for. -/
inductive Entry where
  /-- A file with its bytes. -/
  | file (content : ByteArray)
  /-- A folder with its own entries. -/
  | folder (entries : List (String × Entry))
deriving Inhabited

/-- The entries of a folder by name. -/
abbrev Folder := List (String × Entry)

/-- Whether the entry is a file. -/
def Entry.isFile : Entry → Bool
  | .file _ => true
  | .folder _ => false

namespace Folder

/-- The entry of a name. -/
def get? (d : Folder) (name : String) : Option Entry := List.lookup name d

/-- Whether a name is taken. -/
def contains (d : Folder) (name : String) : Bool := (get? d name).isSome

/-- The folder without a name. -/
def erase (d : Folder) (name : String) : Folder := List.filter (·.1 ≠ name) d

/-- The folder with a name standing for an entry, whatever it stood for before. -/
def put (d : Folder) (name : String) (entry : Entry) : Folder := (name, entry) :: erase d name

/-- The names in a folder, in the order of their bytes. -/
def names (d : Folder) : List String := (List.map (·.1) d).mergeSort (fun a b => decide (a ≤ b))

/-- The names of the files of a folder, in the order of their bytes. -/
def fileNames (d : Folder) : List String := names (List.filter (·.2.isFile) d)

/-- The folder with `f` applied to the folder below it that `parts` lead to. -/
def modifyAt (d : Folder) (parts : List String) (f : Folder → Folder) : Folder :=
  match parts with
  | [] => f d
  | name :: rest =>
    match get? d name with
    | some (.folder sub) => put d name (.folder (modifyAt sub rest f))
    | _ => d

end Folder

mutual

/-- Everything at and below an entry, with its name from `path` on. -/
def Entry.listing (path : String) : Entry → List (String × Entry)
  | .file content => [(path, .file content)]
  | .folder entries => (path, .folder entries) :: listingBelow (path ++ "/") entries

/-- Everything in and below a folder, with names that start with `above`. -/
def listingBelow (above : String) : List (String × Entry) → List (String × Entry)
  | [] => []
  | (name, entry) :: rest => entry.listing (above ++ name) ++ listingBelow above rest

end

/-- Everything in and below a folder by its name from there on, in the order of the bytes of the names. -/
def Folder.listing (d : Folder) : List (String × Entry) :=
  (listingBelow "" d).mergeSort (fun a b => decide (a.1 ≤ b.1))

end SeedCorpus
