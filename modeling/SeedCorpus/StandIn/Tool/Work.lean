/-
  What the stand-in programs do to files, operand by operand.

  A tool that changes files deals with one operand after the other; what cannot be done is complained about, and the rest is
  done all the same.  `Work` is such a piece of work, and `Work.finish` what the tool leaves in the end.
-/
import SeedCorpus.StandIn.Tool.Options

namespace SeedCorpus.StandIn.Tool

/-- How far a tool has come. -/
structure Progress where
  /-- All files. -/
  files : FileTree
  /-- What is printed, the last line first. -/
  output : List Bytes := []
  /-- The complaints, the last one first. -/
  errors : List String := []
  /-- The status so far. -/
  status : Nat := 0
deriving Inhabited

/-- Something that a tool does with files. -/
abbrev Work (α : Type) := StateM Progress α

namespace Work

/-- All files as they are now. -/
def files : Work FileTree := do return (← get).files

/-- Prints a line. -/
def print (line : String) : Work Unit := modify fun p => { p with output := Utf8.encode (line ++ "\n") :: p.output }

/-- Prints bytes. -/
def printBytes (bytes : Bytes) : Work Unit := modify fun p => { p with output := bytes :: p.output }

/-- Complains; the tool will end with a status of its own. -/
def blame (name text : String) (status : Nat) : Work Unit :=
  modify fun p => { p with errors := (name ++ ": " ++ text ++ "\n") :: p.errors, status := max p.status status }

/-- Changes the files, or does something else if they cannot be changed. -/
def change (result : Except FileError FileTree) (otherwise : FileError → Work Unit) : Work Unit :=
  match result with
  | .ok files => modify fun p => { p with files }
  | .error e => otherwise e

/-- Changes the files, and tells whether that was possible; a complaint follows from the cause. -/
def succeeds (name : String) (result : Except FileError FileTree) (complaint : FileError → String) : Work Bool :=
  match result with
  | .ok files => do
    modify fun p => { p with files }
    return true
  | .error e => do
    blame name (complaint e) 1
    return false

/-- What a tool leaves that has done its work. -/
def finish (t : Task) (work : Work Unit) : Finish :=
  let ((), p) := work.run { files := t.files }
  { output := p.output.reverse.flatten, errors := Utf8.encode (String.join p.errors.reverse), status := p.status
    changed := some p.files }

end Work

/-- The last name of a path, without the slashes at its end. -/
def baseName (path : String) : String :=
  match ((Path.names path).filter (· ≠ "")).getLast? with
  | some name => name
  | none => if path.isEmpty then "" else "/"

/-- What is said of a path at which something cannot be done. -/
def cannot (verb path : String) (e : FileError) : String := "cannot " ++ verb ++ " " ++ quotedAlways path ++ ": " ++ e.reason

end SeedCorpus.StandIn.Tool
