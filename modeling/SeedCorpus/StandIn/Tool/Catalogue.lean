/-
  The stand-in programs by name.

  A tool is found by its name, or by its path in one of the folders for programs.  Asked for its version it succeeds,
  whatever it does otherwise, except for the one that always fails.
-/
import SeedCorpus.StandIn.Tool.Calculation
import SeedCorpus.StandIn.Tool.Condition
import SeedCorpus.StandIn.Tool.Creation
import SeedCorpus.StandIn.Tool.Grep
import SeedCorpus.StandIn.Tool.Listing
import SeedCorpus.StandIn.Tool.Removal
import SeedCorpus.StandIn.Tool.Sed
import SeedCorpus.StandIn.Tool.Transfer

namespace SeedCorpus.StandIn.Tool

/-- Does nothing and succeeds. -/
def succeed : Tool := fun _ => {}

/-- Does nothing and fails. -/
def fail : Tool := fun _ => { status := 1 }

/-- The last name of a path, or the name that is asked for without an ending. -/
def basename : Tool := fun t =>
  match t.args with
  | [] => missingOperand "basename"
  | path :: more =>
    let name := (((path.splitOn "/").filter (· ≠ "")).getLast?).getD "/"
    let ending := more.head?.getD ""
    let dropped := if name.endsWith ending && name ≠ ending then ending.length else 0
    { output := Utf8.encode (String.ofList (name.toList.take (name.length - dropped)) ++ "\n") }

/-- A path without its last name. -/
def parentName (path : String) : String :=
  let bare := (path.toList.reverse.dropWhile (· = '/'))
  if bare.isEmpty then (if path.isEmpty then "." else "/")
  else
    match bare.dropWhile (· ≠ '/') with
    | [] => "."
    | above =>
      let parent := above.dropWhile (· = '/')
      if parent.isEmpty then "/" else String.ofList parent.reverse

/-- Paths without their last names. -/
def dirname : Tool := fun t =>
  if t.args.isEmpty then missingOperand "dirname"
  else { output := Utf8.encode (String.join (t.args.map fun path => parentName path ++ "\n")) }

/-- All tools with their names. -/
def catalogue : List (String × Tool) :=
  [("true", succeed), ("false", fail), ("echo", echo), ("printf", printf .program), ("cat", cat), ("tac", tac),
    ("rev", rev), ("head", head), ("tail", tail), ("cut", cut), ("sort", sort), ("uniq", uniq), ("wc", wc), ("seq", seq),
    ("yes", yes), ("dd", dd), ("tee", tee), ("sleep", sleep), ("tr", tr), ("grep", grep), ("sed", sed),
    ("test", test Doubt.message), ("[", bracket Doubt.message), ("basename", basename), ("dirname", dirname), ("rm", rm),
    ("rmdir", rmdir), ("mkdir", mkdir), ("touch", touch), ("chmod", chmod), ("truncate", truncate), ("mv", mv), ("cp", cp),
    ("ln", ln), ("ls", ls), ("pwd", pwd), ("realpath", realpath), ("readlink", readlink), ("stat", stat),
    ("expr", expr)]

/-- Whether a program is the shell. -/
def isShell (name : String) : Bool := name = "sh" || name = "dash"

/-- The tool of a name. -/
def find? (name : String) : Option Tool := do
  let tool ← catalogue.lookup name
  return fun t =>
    if t.args = ["--version"] && name ≠ "test" then
      { output := Utf8.encode (name ++ "\n"), status := if name = "false" then 1 else 0 }
    else tool t

/-- The names of all programs. -/
def programNames : List String := catalogue.map (·.1) ++ ["sh", "dash", "env"]

end SeedCorpus.StandIn.Tool
