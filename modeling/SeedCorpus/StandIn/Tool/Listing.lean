/-
  Stand-ins for programs that tell about folders and files.

  `ls` prints the names in folders, or the paths of files, one a line and in the order of their bytes unless it is told
  otherwise.  Entries keep no rights, owners and times, so that a long listing has the same ones for all.
-/
import SeedCorpus.StandIn.Tool.Work

namespace SeedCorpus.StandIn.Tool

/-- How entries are listed. -/
structure ListStyle where
  /-- Which options are given. -/
  given : Char → Bool

namespace ListStyle

/-- How many bytes an entry holds. -/
def sizeOf : Entry → Nat
  | .file content => content.size
  | .folder _ => 4096

/-- A name as it is shown: between double quotes if these are asked for, with a mark behind folders if marks are. -/
def shown (l : ListStyle) (name : String) (entry : Entry) : String :=
  let escape (b : UInt8) : String :=
    if isShown b then
      (if b = 92 || (b = 34 && l.given 'Q') || (b = 32 && l.given 'b') then "\\" else "") ++ String.singleton (Char.ofNat b.toNat)
    else escapeOf b
  let bytes := Utf8.encode name
  let name :=
    if l.given 'Q' then "\x22" ++ String.join (bytes.map escape) ++ "\x22"
    else if l.given 'b' then String.join (bytes.map escape)
    else if l.given 'q' then String.ofList (bytes.map fun b => if isShown b then Char.ofNat b.toNat else '?')
    else name
  if !entry.isFile && (l.given 'F' || l.given 'p') then name ++ "/" else name

/-- Entries in the order that is asked for. A folder holds what changed last in front. -/
def ordered (l : ListStyle) (entries : List (String × Entry)) : List (String × Entry) :=
  let byName := entries.mergeSort fun a b => decide (a.1 ≤ b.1)
  let sorted :=
    if l.given 'S' then byName.mergeSort fun a b => decide (sizeOf b.2 ≤ sizeOf a.2)
    else if l.given 't' then entries
    else byName
  if l.given 'r' then sorted.reverse else sorted

/-- The line of an entry in a long listing, given the width of the sizes. -/
def longRow (l : ListStyle) (width : Nat) (name : String) (entry : Entry) : String :=
  let size := toString (sizeOf entry)
  let links := match entry with
    | .file _ => "1"
    | .folder entries => toString (2 + (entries.filter (!·.2.isFile)).length)
  let owners := if l.given 'g' then "root" else if l.given 'o' then "root" else "root root"
  (if entry.isFile then "-rw-r--r-- " else "drwxr-xr-x ") ++ links ++ " " ++ owners ++ " "
    ++ String.ofList (List.replicate (width - size.length) ' ') ++ size ++ " Jan  1 00:00 " ++ l.shown name entry

/-- The text that lists entries in order. -/
def rows (l : ListStyle) (entries : List (String × Entry)) : String :=
  let names := entries.map fun (name, entry) => l.shown name entry
  if l.given 'l' || l.given 'g' || l.given 'o' || l.given 'n' then
    let width := (entries.map fun e => (toString (sizeOf e.2)).length).foldl max 1
    String.join (entries.map fun (name, entry) => l.longRow width name entry ++ "\n")
  else if names.isEmpty then ""
  else if l.given 'm' then ", ".intercalate names ++ "\n"
  else if (l.given 'C' || l.given 'x') && !l.given '1' then "  ".intercalate names ++ "\n"
  else String.join (names.map (· ++ "\n"))

/-- The entries of a folder that are listed. -/
def visible (l : ListStyle) (entries : List (String × Entry)) : List (String × Entry) :=
  let own := if l.given 'a' || l.given 'f' then [(".", Entry.folder []), ("..", Entry.folder [])] else []
  let all := l.given 'a' || l.given 'A' || l.given 'f'
  l.ordered (own ++ entries.filter fun e => all || !e.1.startsWith ".")

/-- The text that lists the entries in a folder. -/
def folderText (l : ListStyle) (entries : List (String × Entry)) : String :=
  let total := ((l.visible entries).map fun e => 4 * ((sizeOf e.2 + 4095) / 4096)).sum
  (if l.given 'l' || l.given 'g' || l.given 'o' || l.given 'n' then "total " ++ toString total ++ "\n" else "")
    ++ l.rows (l.visible entries)

mutual

/-- The texts that list a folder and those in it, each with its path in front. -/
def deepTexts (l : ListStyle) (path : String) : Entry → List (String × String)
  | .file _ => []
  | .folder entries => (path, l.folderText entries) :: deepTextsIn l path entries

/-- The texts that list the folders in a folder. -/
def deepTextsIn (l : ListStyle) (path : String) : List (String × Entry) → List (String × String)
  | [] => []
  | (name, entry) :: rest =>
    (if name.startsWith "." && !l.given 'a' && !l.given 'A' then [] else deepTexts l (Path.join path name) entry)
      ++ deepTextsIn l path rest

end

end ListStyle

/-- The letters of options of `ls` that have names. -/
def listNames : List (String × String) :=
  [("all", "a"), ("almost-all", "A"), ("directory", "d"), ("classify", "F"), ("reverse", "r"), ("recursive", "R"),
    ("size", "s"), ("quote-name", "Q"), ("escape", "b"), ("hide-control-chars", "q"), ("literal", "N"), ("color", "G"),
    ("human-readable", "h"), ("no-group", "G"), ("group-directories-first", "G"), ("width", "w")]

/-- Lists folders and files. -/
def ls : Tool := fun t =>
  let args := t.args.filter fun word => !word.startsWith "--color" && !word.startsWith "--sort"
  withNamedOptions "ls" "wTI" "1aAbBcCdDfFgGhHiklLmnNopqQrRsStuUvxXZ" listNames { t with args } 2 fun options operands =>
    let l : ListStyle := { given := fun letter => (options.lookup letter).isSome }
    let operands := (if operands.isEmpty then ["."] else operands).mergeSort fun a b => decide (a ≤ b)
    let found := operands.map fun path => (path, t.files.find path)
    let failed := found.filterMap fun (path, entry) =>
      match entry with
      | .error e => some ("ls: " ++ cannot "access" path e ++ "\n")
      | .ok _ => none
    let entries := found.filterMap fun (path, entry) => entry.toOption.map (path, ·)
    let (single, folders) := entries.partition fun (_, entry) => entry.isFile || l.given 'd'
    let blocks := (l.ordered folders).flatMap fun (path, entry) =>
      match entry with
      | .file _ => []
      | .folder inside =>
        if l.given 'R' then (l.deepTexts path entry).mergeSort fun a b => decide (a.1 ≤ b.1) else [(path, l.folderText inside)]
    let titled := operands.length > 1 || l.given 'R'
    let texts := blocks.map fun (path, text) => if titled then path ++ ":\n" ++ text else text
    let front := if single.isEmpty then [] else [l.rows (l.ordered single)]
    { output := Utf8.encode ("\n".intercalate (front ++ texts)), errors := Utf8.encode (String.join failed)
      status := if failed.isEmpty then 0 else 2 }

/-! ## Places -/

/-- The path that names lead along. -/
def placePath (parts : List String) : String := "/" ++ "/".intercalate parts

/-- Prints the path of the folder that paths start from. -/
def pwd : Tool := fun t => { output := Utf8.encode (placePath t.files.here ++ "\n") }

/-- Prints the paths that lead straight to places. All but the last names must be there, and that one too if asked for. -/
def realpath : Tool := fun t => withOptions "realpath" "" "emqszLP" t 1 fun options operands =>
  let given (letter : Char) : Bool := (options.lookup letter).isSome
  if operands.isEmpty then missingOperand "realpath"
  else Work.finish t (operands.forM fun path =>
    match (do
      let place ← t.files.locate path
      if given 'e' then let _ ← t.files.entryOf place
      else if !given 'm' then let _ ← t.files.root.folderAt place.parts.dropLast
      return place : Except FileError Location) with
    | .ok place => Work.print (placePath place.parts)
    | .error e => if given 'q' then pure () else Work.blame "realpath" (path ++ ": " ++ e.reason) 1)

/-- Prints where a link leads. Nothing is a link, but the path that leads straight to a place can be asked for. -/
def readlink : Tool := fun t => withOptions "readlink" "" "efmnqsvz" t 1 fun options operands =>
  let given (letter : Char) : Bool := (options.lookup letter).isSome
  if operands.isEmpty then missingOperand "readlink"
  else Work.finish t (operands.forM fun path =>
    match t.files.locate path with
    | .ok place =>
      if given 'm' || (given 'f' && (t.files.root.folderAt place.parts.dropLast).isOk)
          || (given 'e' && (t.files.entryOf place).isOk) then Work.print (placePath place.parts)
      else modify fun p => { p with status := 1 }
    | .error _ => modify fun p => { p with status := 1 })

/-- The text that a format makes of an entry. -/
def statText (path : String) (entry : Entry) : List Char → String
  | '%' :: c :: rest =>
    (match c with
      | 's' => toString (ListStyle.sizeOf entry)
      | 'n' => path
      | 'F' =>
        match entry with
        | .folder _ => "directory"
        | .file content => if content.isEmpty then "regular empty file" else "regular file"
      | 'a' => if entry.isFile then "644" else "755"
      | 'A' => if entry.isFile then "-rw-r--r--" else "drwxr-xr-x"
      | 'U' | 'G' => "root"
      | 'u' | 'g' => "0"
      | 'h' => "1"
      | '%' => "%"
      | c => String.ofList ['%', c]) ++ statText path entry rest
  | c :: rest => String.singleton c ++ statText path entry rest
  | [] => ""

/-- Tells what is known of entries, by a format. -/
def stat : Tool := fun t => withNamedOptions "stat" "c" "fLt" [("format", "c"), ("dereference", "L")] t 1 fun options operands =>
  if operands.isEmpty then missingOperand "stat"
  else Work.finish t (operands.forM fun path =>
    match t.files.find path with
    | .ok entry => Work.print (statText path entry ((options.lookup 'c').getD "%n").toList)
    | .error e => Work.blame "stat" ("cannot statx " ++ quotedAlways path ++ ": " ++ e.reason) 1)

end SeedCorpus.StandIn.Tool
