/-
  Stand-ins for programs that move and copy.

  `mv` gives entries other paths and `cp` makes others like them.  Where the last operand is a folder, everything goes into
  it.  A link is a copy here: it holds what the other file holds when it is made.
-/
import SeedCorpus.StandIn.Tool.Work

namespace SeedCorpus.StandIn.Tool

/-- What is done with a source and the path that it is to have. -/
abbrev Transfer := String → String → Work Unit

/-- The sources of a transfer, and where they go: into a folder or to a path. -/
def withTarget (name : String) (target : Option String) (plain : Bool) (operands : List String) (t : Task)
    (transfer : Transfer) : Finish :=
  let into (folder : String) (sources : List String) : Finish :=
    Work.finish t (sources.forM fun source => transfer source (Path.join folder (baseName source)))
  let isFolder (path : String) : Bool := (t.files.findFolder path).isOk
  match target, operands.reverse with
  | _, [] => complain name ("missing file operand\n" ++ helpHint name) 1
  | some folder, _ =>
    match t.files.findFolder folder with
    | .ok _ => into folder operands
    | .error e => complain name ("target directory " ++ quotedAlways folder ++ ": " ++ e.reason) 1
  | none, [only] => complain name ("missing destination file operand after " ++ quotedAlways only ++ "\n" ++ helpHint name) 1
  | none, last :: sources =>
    if !plain && isFolder last then into last sources.reverse
    else
      match sources with
      | [source] => Work.finish t (transfer source last)
      | _ =>
        match t.files.findFolder last with
        | .ok _ => complain name ("extra operand " ++ quotedAlways last ++ "\n" ++ helpHint name) 1
        | .error e => complain name ("target " ++ quotedAlways last ++ ": " ++ e.reason) 1

/-- Whether two paths lead to the same place. -/
def samePlace (t : FileTree) (a b : String) : Bool :=
  match t.locate a, t.locate b with
  | .ok a, .ok b => a.parts = b.parts
  | _, _ => false

/-- What is said where a file would take the place of a folder, or a folder that of a file. -/
def clash (source path : String) (isFile : Bool) : String :=
  if isFile then "cannot overwrite directory " ++ quotedAlways path ++ " with non-directory"
  else "cannot overwrite non-directory " ++ quotedAlways path ++ " with directory " ++ quotedAlways source

/-! ## Moving -/

/-- Gives an entry another path. -/
def moveEntry (sparing told : Bool) : Transfer := fun source path => do
  let t ← Work.files
  let moved (text : String) : String := "cannot move " ++ quotedAlways source ++ " to " ++ text
  match t.find source, t.find path with
  | .error e, _ => Work.blame "mv" (cannot "stat" source e) 1
  | .ok entry, found =>
    match found with
    | .ok other =>
      if samePlace t source path && entry.isFile then
        return ← Work.blame "mv" (quotedAlways source ++ " and " ++ quotedAlways path ++ " are the same file") 1
      if sparing then return ← Work.blame "mv" ("not replacing " ++ quotedAlways path) 1
      if entry.isFile != other.isFile then return ← Work.blame "mv" (clash source path entry.isFile) 1
    | .error _ => pure ()
    match t.rename source path with
    | .ok files =>
      modify fun p => { p with files }
      if told then Work.print ("renamed " ++ quotedAlways source ++ " -> " ++ quotedAlways path)
    | .error .invalid => Work.blame "mv" (moved ("a subdirectory of itself, " ++ quotedAlways path)) 1
    | .error .notEmpty => Work.blame "mv" (cannot "overwrite" path .notEmpty) 1
    | .error e => Work.blame "mv" (moved (quotedAlways path ++ ": " ++ e.reason)) 1

/-- The letters of options of `mv` and `cp` that have names. -/
def transferNames : List (String × String) :=
  [("force", "f"), ("no-clobber", "n"), ("verbose", "v"), ("interactive", "i"), ("update", "u"), ("backup", "b"),
    ("target-directory", "t"), ("no-target-directory", "T"), ("recursive", "r"), ("archive", "a"), ("link", "l"),
    ("symbolic-link", "s"), ("dereference", "L"), ("no-dereference", "P")]

/-- Gives entries other paths. -/
def mv : Tool := fun t => withNamedOptions "mv" "tS" "finuvTbZ" transferNames t 1 fun options operands =>
  let given (letter : Char) : Bool := (options.lookup letter).isSome
  withTarget "mv" (options.lookup 't') (given 'T') operands t (moveEntry (given 'n') (given 'v'))

/-! ## Copying -/

/-- Writes a copy of a file. -/
def copyFile (told : Bool) (content : ByteArray) : Transfer := fun source path => do
  let t ← Work.files
  let arrow : Work Unit := if told then Work.print (quotedAlways source ++ " -> " ++ quotedAlways path) else pure ()
  match t.device? path with
  | some .output =>
    arrow
    Work.printBytes content.toList
  | _ =>
    match t.write path content with
    | .ok files =>
      modify fun p => { p with files }
      arrow
    | .error .noSpace => Work.blame "cp" ("error writing " ++ quotedAlways path ++ ": " ++ FileError.noSpace.reason) 1
    | .error e =>
      let e := if e = .isFolder then .notFolder else e
      Work.blame "cp" (cannot "create regular file" path e) 1

mutual

/-- Copies an entry to a path. -/
def copyTree (told : Bool) (source path : String) : Entry → Work Unit
  | .file content => do
    if ((← Work.files).findFolder path).isOk then Work.blame "cp" (clash source path true) 1
    else copyFile told content source path
  | .folder entries => do
    let t ← Work.files
    match t.makeFolder path, t.find path with
    | .ok files, _ =>
      modify fun p => { p with files }
      if told then Work.print (quotedAlways source ++ " -> " ++ quotedAlways path)
      copyAll told source path entries
    | .error .taken, .ok (.folder _) => copyAll told source path entries
    | .error .taken, _ => Work.blame "cp" (clash source path false) 1
    | .error e, _ => Work.blame "cp" (cannot "create directory" path e) 1

/-- Copies the entries of a folder into another. -/
def copyAll (told : Bool) (source path : String) : List (String × Entry) → Work Unit
  | [] => pure ()
  | (name, entry) :: rest => do
    copyTree told (Path.join source name) (Path.join path name) entry
    copyAll told source path rest

end

/-- Copies an entry: a folder only if `deep`. -/
def copyEntry (deep sparing told : Bool) : Transfer := fun source path => do
  let t ← Work.files
  match t.find source with
  | .error e => Work.blame "cp" (cannot "stat" source e) 1
  | .ok (.folder entries) =>
    if !deep then Work.blame "cp" ("-r not specified; omitting directory " ++ quotedAlways source) 1
    else
      let inside := match t.locate source, t.locate path with
        | .ok a, .ok b => a.parts.isPrefixOf b.parts
        | _, _ => false
      copyTree told source path (.folder entries)
      if inside then
        Work.blame "cp" ("cannot copy a directory, " ++ quotedAlways source ++ ", into itself, " ++ quotedAlways path) 1
  | .ok (.file content) =>
    if samePlace t source path && t.hasEntry path then
      Work.blame "cp" (quotedAlways source ++ " and " ++ quotedAlways path ++ " are the same file") 1
    else if sparing && t.hasEntry path then pure ()
    else
      let content := if (t.device? source).isSome then ByteArray.empty else content
      copyTree told source path (.file content)

/-- Makes entries like others. -/
def cp : Tool := fun t => withNamedOptions "cp" "tS" "abdfHilLnpPrRsTuvxZ" transferNames t 1 fun options operands =>
  let given (letter : Char) : Bool := (options.lookup letter).isSome
  withTarget "cp" (options.lookup 't') (given 'T') operands t
    (copyEntry (given 'r' || given 'R' || given 'a') (given 'n') (given 'v'))

/-- Makes a file that holds what another one holds. -/
def linkEntry (loose forced told : Bool) : Transfer := fun source path => do
  let t ← Work.files
  let kind := if loose then "symbolic" else "hard"
  let found := if loose then t.find (Path.join (if path.toList.contains '/' then Path.join path ".." else ".") source)
    else t.find source
  match found with
  | .error e => if loose then pure () else Work.blame "ln" ("failed to access " ++ quotedAlways source ++ ": " ++ e.reason) 1
  | .ok entry =>
    if !loose && !entry.isFile then Work.blame "ln" (source ++ ": hard link not allowed for directory") 1
    else if t.hasEntry path && !forced then
      Work.blame "ln" ("failed to create " ++ kind ++ " link " ++ quotedAlways path ++ ": " ++ FileError.taken.reason) 1
    else
      match (do t.parentOf (← t.locate path) : Except FileError (List String × String)) with
      | .ok (parents, name) =>
        modify fun p => { p with files := t.put parents name entry }
        if told then Work.print (quotedAlways path ++ (if loose then " -> " else " => ") ++ quotedAlways source)
      | .error e =>
        Work.blame "ln" ("failed to create " ++ kind ++ " link " ++ quotedAlways path ++ ": " ++ e.reason) 1

/-- Makes files that hold what others hold. -/
def ln : Tool := fun t =>
  withNamedOptions "ln" "tS" "bdfFinLPrsTv" (("symbolic", "s") :: transferNames) t 1 fun options operands =>
    let given (letter : Char) : Bool := (options.lookup letter).isSome
    let operands := match operands with
      | [only] => [only, "."]
      | operands => operands
    withTarget "ln" (options.lookup 't') (given 'T') operands t (linkEntry (given 's') (given 'f') (given 'v'))

end SeedCorpus.StandIn.Tool
