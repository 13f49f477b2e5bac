/-
  Sifting a folder of C files.

  A `SeedFilter` decides about one file at a time.  A file whose bytes are not UTF-8, or whose text a gate refuses, is
  removed.  Any other file first gets the extension of the corpus, unless it carries it or the new name is taken.  Then
  the compiler sees it; what the compiler refuses or takes too long for is removed.  What it accepts is replaced by its
  canonical form.  Whenever a tool or a file operation fails the file stays, under its old or its new name, and the
  failure is reported.

  Tools are functions here (`Compiler`, `Canonicalizer`) that may change files as well; `Compiler.ofJudgement` and
  `Canonicalizer.ofText` are those that do not.  A step returns the files that it leaves together with what it showed to
  the compiler (`Sifted`), so that all of it can be stated.
-/
import SeedCorpus.Filter.Gates
import SeedCorpus.Folder.Tree
import SeedCorpus.Tool.Error

namespace SeedCorpus

/-! ## Tools -/

/-- What a compiler says about a file. -/
inductive Verdict where
  /-- It compiles. -/
  | accepted
  /-- It does not compile. -/
  | rejected
  /-- The compiler did not finish in time. -/
  | timedOut
deriving DecidableEq, Repr

/-- Judges the file of a path, and returns the files that it leaves. -/
abbrev Compiler := FileTree → String → Except ToolError Verdict × FileTree

/-- Brings a text into its normal form, and returns the files that it leaves. -/
abbrev Canonicalizer := FileTree → String → Except ToolError String × FileTree

/-- The compiler that goes by the path and the bytes of a file and leaves all files alone. -/
def Compiler.ofJudgement (judge : String → ByteArray → Except ToolError Verdict) : Compiler := fun t path =>
  (judge path ((t.read path).toOption.getD .empty), t)

/-- The canonicalizer that goes by the text alone and leaves all files alone. -/
def Canonicalizer.ofText (canonical : String → Except ToolError String) : Canonicalizer := fun t text =>
  (canonical text, t)

/-! ## Outcomes -/

/-- Why a file or a folder could not be dealt with. -/
inductive FilterError where
  /-- The file cannot be read. -/
  | unreadable (path : String)
  /-- The file cannot be removed. -/
  | undeletable (path : String)
  /-- The name with the extension is taken. -/
  | nameTaken (path newPath : String)
  /-- The file cannot be renamed. -/
  | unrenamable (path newPath : String)
  /-- The file cannot be written. -/
  | unwritable (path : String)
  /-- The folder cannot be listed. -/
  | unlistable (path : String)
  /-- A tool failed. -/
  | tool (cause : ToolError)
deriving DecidableEq, Repr

/-- The text that reports the cause. -/
def FilterError.message : FilterError → String
  | .unreadable path => "failed to read " ++ path
  | .undeletable path => "failed to delete " ++ path
  | .nameTaken path newPath => "cannot rename " ++ path ++ ": " ++ newPath ++ " already exists"
  | .unrenamable path newPath => "failed to rename " ++ path ++ " to " ++ newPath
  | .unwritable path => "failed to write " ++ path
  | .unlistable path => "failed to list seed directory " ++ path
  | .tool cause => cause.message

/-- What became of a file. -/
inductive Outcome where
  /-- It was kept under the given path; `length` counts the characters of the text that it had. -/
  | accepted (path : String) (length : Nat)
  /-- It was removed. -/
  | rejected (reason : Rejection)
deriving DecidableEq, Repr

/-- What a step came to: its result, the files that it left, and what the compiler saw, in order. -/
structure Sifted (α : Type) where
  /-- The result. -/
  result : α
  /-- The files afterwards. -/
  files : FileTree
  /-- The paths and bytes shown to the compiler. -/
  shown : List (String × ByteArray) := []

/-! ## Names -/

/-- What follows the last dot of a name; a dot in front of the whole name does not count. -/
def extensionOf (name : String) : Option String :=
  let fromEnd := name.toList.reverse
  let after := fromEnd.takeWhile (· ≠ '.')
  let front := (fromEnd.dropWhile (· ≠ '.')).drop 1
  if name = ".." || front.isEmpty then none else some (String.ofList after.reverse)

/-- Whether the file of a path carries an extension. -/
def carries (extension path : String) : Bool := extensionOf (Path.lastName path) = some extension

/-- A path with an extension put behind it. -/
def withExtension (extension path : String) : String := path ++ "." ++ extension

/-! ## One file -/

/-- Everything that decides about files. -/
structure SeedFilter where
  /-- The thresholds for texts. -/
  gates : Gates
  /-- The extension that files of the corpus carry, without the dot. -/
  extension : String
  /-- The compiler. -/
  compiler : Compiler
  /-- The tool that brings a text into its normal form. -/
  canonicalizer : Canonicalizer

/-- Removes a file for a reason. -/
def discard (t : FileTree) (path : String) (reason : Rejection) : Except FilterError Outcome × FileTree :=
  match t.remove path with
  | .ok t => (.ok (.rejected reason), t)
  | .error _ => (.error (.undeletable path), t)

/-- Gives a file the extension if it does not carry it; a name that is taken stops this. -/
def ensureExtension (extension : String) (t : FileTree) (path : String) : Except FilterError (String × FileTree) :=
  let newPath := withExtension extension path
  if carries extension path then .ok (path, t)
  else if t.hasEntry newPath then .error (.nameTaken path newPath)
  else
    match t.rename path newPath with
    | .ok t => .ok (newPath, t)
    | .error _ => .error (.unrenamable path newPath)

/-- Replaces a file that the compiler accepted by its normal form. -/
def SeedFilter.canonicalize (f : SeedFilter) (t : FileTree) (path text : String) :
    Except FilterError Outcome × FileTree :=
  match f.canonicalizer t text with
  | (.error cause, t) => (.error (.tool cause), t)
  | (.ok canonical, t) =>
    match t.write path canonical.toUTF8 with
    | .ok t => (.ok (.accepted path text.length), t)
    | .error _ => (.error (.unwritable path), t)

/-- Asks the compiler about a file and follows its verdict. -/
def SeedFilter.judge (f : SeedFilter) (t : FileTree) (path text : String) : Except FilterError Outcome × FileTree :=
  match f.compiler t path with
  | (.error cause, t) => (.error (.tool cause), t)
  | (.ok .rejected, t) => discard t path .compileFailed
  | (.ok .timedOut, t) => discard t path .compileTimedOut
  | (.ok .accepted, t) => f.canonicalize t path text

/-- Decides about the file of a path. -/
def SeedFilter.processFile (f : SeedFilter) (t : FileTree) (path : String) : Sifted (Except FilterError Outcome) :=
  match t.read path with
  | .error _ => { result := .error (.unreadable path), files := t }
  | .ok bytes =>
    match String.fromUTF8? bytes with
    | none =>
      let (result, files) := discard t path .notUtf8
      { result, files }
    | some text =>
      match f.gates.check text with
      | .error reason =>
        let (result, files) := discard t path reason
        { result, files }
      | .ok () =>
        match ensureExtension f.extension t path with
        | .error cause => { result := .error cause, files := t }
        | .ok (path, t) =>
          let (result, files) := f.judge t path text
          { result, files, shown := [(path, bytes)] }

/-! ## A whole folder -/

/-- How many files a pass kept, removed and could not deal with. -/
structure Summary where
  /-- Files kept. -/
  accepted : Nat := 0
  /-- Files removed. -/
  rejected : Nat := 0
  /-- Files that a failure left where they were. -/
  failed : Nat := 0
deriving DecidableEq, Repr, Inhabited

/-- What a pass over a folder reports. -/
structure Report where
  /-- The counts. -/
  summary : Summary := {}
  /-- A line for each file kept: the name it had and the number of its characters. -/
  progress : String := ""
deriving DecidableEq, Repr, Inhabited

/-- The report with one more file. -/
def Report.add (r : Report) (name : String) : Except FilterError Outcome → Report
  | .ok (.accepted _ length) =>
    { summary := { r.summary with accepted := r.summary.accepted + 1 }
      progress := r.progress ++ name ++ " " ++ toString length ++ "\n" }
  | .ok (.rejected _) => { r with summary := { r.summary with rejected := r.summary.rejected + 1 } }
  | .error _ => { r with summary := { r.summary with failed := r.summary.failed + 1 } }

/-- Decides about one more file of a pass over the folder that a path leads to. -/
def SeedFilter.visit (f : SeedFilter) (path : String) (s : Sifted Report) (name : String) : Sifted Report :=
  let step := f.processFile s.files (Path.join path name)
  { result := s.result.add name step.result, files := step.files, shown := s.shown ++ step.shown }

/-- Decides about every file of the folder that a path leads to, in the order of the names. The files are listed before the
first is dealt with. -/
def SeedFilter.processFolder (f : SeedFilter) (t : FileTree) (path : String) : Sifted (Except FilterError Report) :=
  match t.findFolder path with
  | .error _ => { result := .error (.unlistable path), files := t }
  | .ok d =>
    let s := (Folder.fileNames d).foldl (f.visit path) { result := {}, files := t }
    { s with result := .ok s.result }

end SeedCorpus
