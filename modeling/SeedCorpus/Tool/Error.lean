/-
  Why an external program was of no use.

  `ToolError` lists the causes; the wording of each is in `ToolError.message`.
-/
import SeedCorpus.Folder.Basic

namespace SeedCorpus

/-- What went wrong with an external program. -/
inductive ToolError where
  /-- There is no program to run. -/
  | emptyCommand
  /-- The program could not be started. -/
  | notStarted (cause : FileError)
  /-- The compiler could not be started to be asked for its version. -/
  | compilerNotRunnable (program : String)
  /-- The compiler did not report its version. -/
  | noVersion (program : String)
  /-- The canonicalizer could not be started. -/
  | canonicalizerNotRunnable (program : String)
  /-- The canonicalizer took too long. -/
  | canonicalizerTimedOut (program : String) (seconds : Nat)
  /-- The canonicalizer reported a failure. -/
  | canonicalizerFailed (program errors : String)
  /-- A tool broke down without saying why. -/
  | crashed (tool : String)
deriving DecidableEq, Repr

/-- The text that reports the cause. -/
def ToolError.message : ToolError → String
  | .emptyCommand => "Cannot run an empty command line."
  | .notStarted cause => cause.message
  | .compilerNotRunnable program => "C compiler `" ++ program ++ "` is not runnable"
  | .noVersion program => "C compiler `" ++ program ++ "` failed to report its version"
  | .canonicalizerNotRunnable program => "canonicalizer `" ++ program ++ "` is not runnable"
  | .canonicalizerTimedOut program seconds =>
    "canonicalizer `" ++ program ++ "` timed out after " ++ toString seconds ++ "s"
  | .canonicalizerFailed program errors => "canonicalizer `" ++ program ++ "` failed: " ++ errors
  | .crashed tool => tool ++ " crashed"

end SeedCorpus
