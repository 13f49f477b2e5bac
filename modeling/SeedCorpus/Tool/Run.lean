/-
  Running a program under a limit of time.

  Which programs there are, and what they do, is settled outside of this library: a compiler is whatever the system has
  under that name.  So the programs of a system are a parameter, the class `Programs`, and everything that runs commands
  takes it.  Starting a program either fails or leaves an `Outcome`: two streams of bytes, how the program ended, and all
  files as they are then.

  `run` is what the library adds to that.  A command line without words is an error, a program that could not be started
  is one, and of any other program it says what it printed, read as text whatever the bytes are, whether it succeeded, and
  whether it ended before its time was over.
-/
import SeedCorpus.Folder.Tree
import SeedCorpus.Text.Utf8
import SeedCorpus.Tool.Error

namespace SeedCorpus

namespace Tool

/-- How a program ended. -/
inductive Ending where
  /-- With a status. -/
  | exited (status : Nat)
  /-- By a signal. -/
  | killed
  /-- Its time was over. -/
  | timedOut
deriving DecidableEq, Repr, Inhabited

/-- What a program left. -/
structure Outcome where
  /-- What it printed. -/
  output : Bytes
  /-- What it complained about. -/
  errors : Bytes
  /-- How it ended. -/
  ending : Ending
  /-- All files. -/
  files : FileTree
deriving Inhabited

end Tool

/-- The programs of a system. -/
class Programs where
  /-- Starts the program that a word names, with further words and a stream to read, and stops it after a number of
  seconds.  The files are those that the program finds. -/
  start : FileTree → (program : String) → (args : List String) → (input : Bytes) → (seconds : Nat) →
    Except FileError Tool.Outcome

/-- What is known of a program that was run. -/
structure RunResult where
  /-- What it printed. -/
  output : String
  /-- What it complained about. -/
  errors : String
  /-- Whether it ended with the status zero. -/
  success : Bool
  /-- Whether it ended by itself. -/
  termination : Bool
deriving DecidableEq, Repr, Inhabited

namespace Tool

/-- What is known of a program by what it left. -/
def Outcome.result (o : Outcome) : RunResult :=
  { output := Utf8.decode o.output, errors := Utf8.decode o.errors
    success := o.ending = .exited 0, termination := o.ending ≠ .timedOut }

/-- Runs a command line for less than a number of seconds. What the program does to files stays. -/
def run [Programs] (t : FileTree) (words : List String) (input : String) (seconds : Nat) :
    Except ToolError RunResult × FileTree :=
  match words with
  | [] => (.error .emptyCommand, t)
  | program :: args =>
    match Programs.start t program args (Utf8.encode input) seconds with
    | .error cause => (.error (.notStarted cause), t)
    | .ok outcome => (.ok outcome.result, outcome.files)

end Tool

end SeedCorpus
