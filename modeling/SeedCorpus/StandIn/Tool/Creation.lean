/-
  Stand-ins for programs that make files and folders.

  `mkdir` makes folders, `touch` empty files, `truncate` gives files a size, and `tee` writes its input to files.  There are
  no rights to files here: `chmod` only checks that it could change some.
-/
import SeedCorpus.StandIn.Tool.Work

namespace SeedCorpus.StandIn.Tool

/-- Makes a folder and, if `deep`, those on the way to it. -/
def makeFolders (deep told : Bool) (path : String) : Work Unit := do
  let names := (Path.names path).filter (· ≠ "")
  let start := if Path.isAbsolute path then "/" else ""
  let step (goesOn : Bool) (k : Nat) : Work Bool := do
    let part := start ++ "/".intercalate (names.take (k + 1))
    let t ← Work.files
    match goesOn, t.makeFolder part, t.find part with
    | false, _, _ => return false
    | true, .ok files, _ =>
      modify fun p => { p with files }
      if told then Work.print ("mkdir: created directory " ++ quotedAlways part)
      return true
    | true, .error .taken, .ok (.folder _) => return true
    | true, .error e, _ =>
      let e := if e = .taken && k + 1 < names.length then .notFolder else e
      Work.blame "mkdir" ("cannot create directory " ++ quotedAlways part ++ ": " ++ e.reason) 1
      return false
  if deep && !names.isEmpty then
    let _ ← (List.range names.length).foldlM step true
  else
    let done ← Work.succeeds "mkdir" ((← Work.files).makeFolder path) fun e =>
      "cannot create directory " ++ quotedAlways path ++ ": " ++ e.reason
    if done && told then Work.print ("mkdir: created directory " ++ quotedAlways path)

/-- Makes folders. -/
def mkdir : Tool := fun t =>
  withNamedOptions "mkdir" "m" "pvZ" [("parents", "p"), ("verbose", "v"), ("mode", "m")] t 1 fun options operands =>
    let given (letter : Char) : Bool := (options.lookup letter).isSome
    if operands.isEmpty then missingOperand "mkdir"
    else Work.finish t (operands.forM (makeFolders (given 'p') (given 'v')))

/-- Makes an empty file unless something has the path. -/
def touchEntry (sparing : Bool) (path : String) : Work Unit := do
  let t ← Work.files
  if t.hasEntry path then pure ()
  else
    match t.write path .empty with
    | .ok files => if sparing then pure () else modify fun p => { p with files }
    | .error .isFolder => Work.blame "touch" ("setting times of " ++ quotedAlways path ++ ": " ++ FileError.notFound.reason) 1
    | .error e => if sparing && e = .notFound then pure () else Work.blame "touch" (cannot "touch" path e) 1

/-- Makes empty files. -/
def touch : Tool := fun t =>
  withNamedOptions "touch" "drt" "acfhm" [("no-create", "c"), ("date", "d"), ("reference", "r")] t 1 fun options operands =>
    if operands.isEmpty then complain "touch" ("missing file operand\n" ++ helpHint "touch") 1
    else Work.finish t (operands.forM (touchEntry (options.lookup 'c').isSome))

/-! ## Rights -/

/-- Whether a text says how rights change: with digits, or with letters. -/
def isMode (text : String) : Bool :=
  let s := text.toList
  let isChange (part : List Char) : Bool :=
    let rest := part.dropWhile "ugoa".toList.contains
    !rest.isEmpty && "+-=".toList.contains (rest.headD ' ') && rest.all "+-=rwxXstugo".toList.contains
  (!s.isEmpty && s.length ≤ 4 && s.all fun c => '0' ≤ c && c ≤ '7')
    || (text.splitOn ",").all fun part => isChange part.toList

/-- Checks that rights could be changed. -/
def chmod : Tool := fun t =>
  let isOption (word : String) : Bool := word.startsWith "-" && !isMode word && word ≠ "--"
  let words := t.args.filter fun word => !isOption word && word ≠ "--"
  let options := (t.args.filter isOption).flatMap fun word => word.toList.drop 1
  match options.find? fun letter => !"Rvcf-".toList.contains letter, words with
  | some letter, _ => badOption "chmod" (.unknownLetter letter) 1
  | none, [] => missingOperand "chmod"
  | none, [mode] => complain "chmod" ("missing operand after " ++ cited mode ++ "\n" ++ helpHint "chmod") 1
  | none, mode :: paths =>
    if !isMode mode then complain "chmod" ("invalid mode: " ++ cited mode ++ "\n" ++ helpHint "chmod") 1
    else Work.finish t (paths.forM fun path =>
      match t.files.find path with
      | .ok _ => pure ()
      | .error e => Work.blame "chmod" (cannot "access" path e) 1)

/-! ## Sizes -/

/-- The number of bytes that a text such as `12`, `3K` or `2MB` stands for. -/
def sizeOf? (text : String) : Option Nat :=
  let digits := text.toList.takeWhile Char.isDigit
  let unit := String.ofList (text.toList.drop digits.length)
  let number := digits.foldl (fun n c => 10 * n + (c.toNat - '0'.toNat)) 0
  let factor : Option Nat := match unit with
    | "" | "c" => some 1
    | "w" => some 2
    | "b" => some 512
    | "K" | "k" | "KiB" => some 1024
    | "kB" | "KB" => some 1000
    | "M" | "MiB" => some (1024 ^ 2)
    | "MB" => some (1000 ^ 2)
    | "G" | "GiB" => some (1024 ^ 3)
    | "GB" => some (1000 ^ 3)
    | _ => none
  if digits.isEmpty && unit.isEmpty then none else factor.map ((if digits.isEmpty then 1 else number) * ·)

/-- Bytes cut off or filled up with zeros. -/
def resized (content : ByteArray) (size : Nat) : ByteArray :=
  if size ≤ content.size then content.extract 0 size
  else content ++ ⟨(List.replicate (size - content.size) (0 : UInt8)).toArray⟩

/-- The size that a text asks for, given the one that there is. -/
def newSize? (text : String) (old : Nat) : Option Nat :=
  match text.toList with
  | '+' :: rest => (sizeOf? (String.ofList rest)).map (old + ·)
  | '-' :: rest => (sizeOf? (String.ofList rest)).map (old - ·)
  | '<' :: rest => (sizeOf? (String.ofList rest)).map (min old ·)
  | '>' :: rest => (sizeOf? (String.ofList rest)).map (max old ·)
  | _ => sizeOf? text

/-- Gives files a size. -/
def truncate : Tool := fun t =>
  withNamedOptions "truncate" "sr" "co" [("size", "s"), ("no-create", "c"), ("reference", "r")] t 1 fun options operands =>
    match options.lookup 's' with
    | none => complain "truncate" ("you must specify either '--size' or '--reference'\n" ++ helpHint "truncate") 1
    | some text =>
      if (newSize? text 0).isNone then complain "truncate" ("Invalid number: " ++ cited text) 1
      else if operands.isEmpty then complain "truncate" ("missing file operand\n" ++ helpHint "truncate") 1
      else Work.finish t (operands.forM fun path => do
        let files ← Work.files
        let old := (files.read path).toOption
        if old.isNone && (options.lookup 'c').isSome then pure ()
        else
          let content := resized (old.getD .empty) ((newSize? text (old.getD .empty).size).getD 0)
          Work.change (files.write path content) fun e =>
            Work.blame "truncate" ("cannot open " ++ quotedAlways path ++ " for writing: " ++ e.reason) 1)

/-! ## Writing the input to files -/

/-- Writes bytes to the file of a path, behind what it holds if `behind`. -/
def writeInput (behind : Bool) (input : Bytes) (path : String) : Work Unit := do
  let t ← Work.files
  match t.device? path with
  | some .output => Work.printBytes input
  | some .errors => modify fun p => { p with errors := Utf8.decode input :: p.errors }
  | _ =>
    let old := if behind then ((t.read path).toOption.map ByteArray.toList).getD [] else []
    Work.change (t.write path ⟨(old ++ input).toArray⟩) fun e => Work.blame "tee" (unreadable path e) 1

/-- Passes the input on, and writes it to files too. -/
def tee : Tool := fun t =>
  withNamedOptions "tee" "" "aip" [("append", "a"), ("ignore-interrupts", "i")] t 1 fun options operands =>
    { Work.finish t (do
        Work.printBytes t.input
        operands.forM (writeInput (options.lookup 'a').isSome t.input)) with
      consumed := true }

end SeedCorpus.StandIn.Tool
