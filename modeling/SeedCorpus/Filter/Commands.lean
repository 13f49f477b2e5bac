/-
  Programs as the tools of a filter.

  A compiler gets the path of the file as its last argument; its status is the verdict.  A canonicalizer reads a text and
  prints its normal form.  Both may read and change any files.  What they do is up to the programs of the system.
-/
import SeedCorpus.Filter.Seeds
import SeedCorpus.Text.Blank
import SeedCorpus.Tool.Command
import SeedCorpus.Tool.Run

namespace SeedCorpus.Command

variable [Programs]

/-- Whether the program can be run at all: it is asked for its version. -/
def probe (c : Command) (t : FileTree) : Except ToolError Unit × FileTree :=
  match Tool.run t [c.program, "--version"] "" c.timeoutSecs with
  | (.error _, t) => (.error (.compilerNotRunnable c.program), t)
  | (.ok result, t) => (if result.success then .ok () else .error (.noVersion c.program), t)

/-- The program as a compiler. -/
def compiler (c : Command) : Compiler := fun t path =>
  match Tool.run t (c.words ++ [path]) "" c.timeoutSecs with
  | (.error cause, t) => (.error cause, t)
  | (.ok result, t) =>
    (.ok (if !result.termination then .timedOut else if result.success then .accepted else .rejected), t)

/-- The program as a canonicalizer. -/
def canonicalizer (c : Command) : Canonicalizer := fun t text =>
  match Tool.run t c.words text c.timeoutSecs with
  | (.error _, t) => (.error (.canonicalizerNotRunnable c.program), t)
  | (.ok result, t) =>
    if !result.termination then (.error (.canonicalizerTimedOut c.program c.timeoutSecs), t)
    else if !result.success then (.error (.canonicalizerFailed c.program (Blank.trim result.errors)), t)
    else (.ok result.output, t)

end SeedCorpus.Command
