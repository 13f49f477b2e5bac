/-
  Stand-ins for programs that remove files and folders.

  `rm` removes files, and folders with everything in them if it is told to; `rmdir` removes folders that are empty.
-/
import SeedCorpus.StandIn.Tool.Work

namespace SeedCorpus.StandIn.Tool

mutual

/-- The lines that tell what goes when an entry goes. -/
def removedBelow (path : String) : Entry → List String
  | .file _ => ["removed " ++ quotedAlways path]
  | .folder entries => removedIn (path ++ "/") entries ++ ["removed directory " ++ quotedAlways path]

/-- The lines that tell what goes when entries go whose names stand behind a path. -/
def removedIn (above : String) : List (String × Entry) → List String
  | [] => []
  | (name, entry) :: rest => removedBelow (above ++ name) entry ++ removedIn above rest

end

/-- Removes the entry of a path: a folder if it is empty and `empty` holds, or in any case if `deep`. -/
def removeEntry (deep empty forced told : Bool) (path : String) : Work Unit := do
  let t ← Work.files
  let complain (e : FileError) : Work Unit := Work.blame "rm" (cannot "remove" path e) 1
  let last := baseName path
  if deep && (last = "." || last = "..") then
    Work.blame "rm" ("refusing to remove '.' or '..' directory: skipping " ++ quotedAlways path) 1
  else
    match t.locate path, t.find path with
    | .ok place, .ok entry =>
      let gone := t.erase place.parts.dropLast (place.parts.getLast?.getD "")
      let go : Work Unit := do
        modify fun p => { p with files := gone }
        if told then (removedBelow path entry).forM Work.print
      match entry with
      | .file _ => go
      | .folder entries =>
        if deep then
          if place.parts.isEmpty then
            Work.blame "rm" ("it is dangerous to operate recursively on " ++ quotedAlways path
              ++ "\nrm: use --no-preserve-root to override this failsafe") 1
          else go
        else if !empty then complain .isFolder
        else if entries.isEmpty then go
        else complain .notEmpty
    | _, .error e | .error e, _ => if forced && (e = .notFound || e = .notFolder) then pure () else complain e

/-- The letters of options of `rm` that have names. -/
def removalNames : List (String × String) :=
  [("force", "f"), ("recursive", "r"), ("dir", "d"), ("verbose", "v"), ("interactive", "i"), ("one-file-system", "o"),
    ("no-preserve-root", "p"), ("preserve-root", "p")]

/-- Removes files. -/
def rm : Tool := fun t => withNamedOptions "rm" "" "dfiIrRvop" removalNames t 1 fun options operands =>
  let given (letter : Char) : Bool := (options.lookup letter).isSome
  if operands.isEmpty then if given 'f' then {} else missingOperand "rm"
  else Work.finish t (operands.forM (removeEntry (given 'r' || given 'R') (given 'd') (given 'f') (given 'v')))

/-- A path and those of the folders on the way to it, the longest first. -/
def pathsUp (path : String) : List String :=
  let names := (Path.names path).filter (· ≠ "")
  let start := if Path.isAbsolute path then "/" else ""
  (List.range names.length).map fun k => start ++ "/".intercalate (names.take (names.length - k))

/-- Removes empty folders, up to the first that cannot go. -/
def removeFolders (sparing told : Bool) : List String → Work Unit
  | [] => pure ()
  | path :: rest => do
    if told then Work.print ("rmdir: removing directory, " ++ quotedAlways path)
    match (← Work.files).removeFolder path with
    | .ok files =>
      modify fun p => { p with files }
      removeFolders sparing told rest
    | .error e =>
      if sparing && e = .notEmpty then pure ()
      else Work.blame "rmdir" ("failed to remove " ++ quotedAlways path ++ ": " ++ e.reason) 1

/-- Removes folders that are empty. -/
def rmdir : Tool := fun t =>
  let names := [("parents", "p"), ("verbose", "v"), ("ignore-fail-on-non-empty", "i")]
  withNamedOptions "rmdir" "" "pvi" names t 1 fun options operands =>
    let given (letter : Char) : Bool := (options.lookup letter).isSome
    if operands.isEmpty then missingOperand "rmdir"
    else Work.finish t (operands.forM fun path =>
      removeFolders (given 'i') (given 'v') (if given 'p' then pathsUp path else [path]))

end SeedCorpus.StandIn.Tool
