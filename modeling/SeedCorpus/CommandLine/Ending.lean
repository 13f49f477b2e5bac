/-
  How a command ends.

  An `Ending` says what became of a command; the status, the text for the output and the text for the complaints follow
  from it.
-/
import SeedCorpus.CommandLine.Grammar

namespace SeedCorpus.CommandLine

/-- How a command ends. -/
inductive Ending where
  /-- It did its work, reported progress on the output and may have a summary. -/
  | done (progress : String) (summary : Option String)
  /-- It failed. -/
  | failed (message : String)
  /-- It did not understand its command line. -/
  | refused (cause : Misuse)
  /-- It explained itself. -/
  | explained (text : String)
  /-- It told its version. -/
  | identified (text : String)
deriving DecidableEq, Repr

/-- The status: one for a failure, two for a command line that is refused, otherwise zero. -/
def Ending.status : Ending → Nat
  | .failed _ => 1
  | .refused _ => 2
  | _ => 0

/-- What is printed. -/
def Ending.output : Ending → String
  | .done progress _ => progress
  | .explained text => text
  | .identified text => text
  | _ => ""

/-- The message of a failure. -/
def Ending.message? : Ending → Option String
  | .failed message => some ("Error: " ++ message)
  | _ => none

/-- The summary of work that was done. -/
def Ending.summary? : Ending → Option String
  | .done _ summary => summary
  | _ => none

/-- What is told besides: why the command line was refused, or else the message or the summary in a line of its own. -/
def Ending.errors (e : Ending) : String :=
  match e with
  | .refused cause => "error: " ++ cause.message ++ "\n\nFor more information, try '--help'.\n"
  | e => ((e.message? <|> e.summary?).map (· ++ "\n")).getD ""

/-- The version of the commands. -/
def currentVersion : String := "0.1.0"

/-- The ending of a command line that holds no settings. -/
def Stop.ending {σ : Type} (stop : Stop) (g : Grammar σ) (program : String) : Ending :=
  match stop with
  | .help => .explained (g.help program)
  | .version => .identified (program ++ " " ++ currentVersion ++ "\n")
  | .misuse cause => .refused cause

end SeedCorpus.CommandLine
