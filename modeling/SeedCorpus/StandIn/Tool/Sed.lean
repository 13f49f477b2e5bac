/-
  A stand-in for `sed`, which edits lines by a script.
-/
import SeedCorpus.StandIn.Tool.Sed.Editing

namespace SeedCorpus.StandIn.Tool

/-- The short forms of options that are written out. -/
def sedOption (word : String) : List String :=
  match word with
  | "--quiet" | "--silent" => ["-n"]
  | "--regexp-extended" => ["-E"]
  | "--separate" => ["-s"]
  | "--unbuffered" => ["-u"]
  | "--posix" | "--debug" => []
  | word =>
    let option := "--expression="
    if word.startsWith option then ["-e", (word.drop option.length).toString] else [word]

/-- Edits lines by a script. A script that does not end in time counts as endless. -/
def sed : Tool := fun t =>
  withOptions "sed" "e" "nErsu" { t with args := t.args.flatMap sedOption } 1 fun options operands =>
    let given (letter : Char) : Bool := (options.lookup letter).isSome
    let explicit := (options.filter (·.1 = 'e')).map (·.2)
    let script := "\n".intercalate (if explicit.isEmpty then operands.take 1 else explicit)
    let names := if explicit.isEmpty then operands.drop 1 else operands
    if explicit.isEmpty && operands.isEmpty then
      { errors := Utf8.encode "Usage: sed [OPTION]... \x7bscript-only-if-no-other-script\x7d [input-file]...\n"
        status := 1 }
    else
      match Sed.readScript (given 'E' || given 'r') script with
      | .error flaw => complain "sed" flaw 1
      | .ok commands =>
        let names := if names.isEmpty then ["-"] else names
        let readable := (t.contents names).filterMap fun (_, content) => content.toOption
        let (_, errors) := t.gather "sed" (fun name e => "can't read " ++ name ++ ": " ++ e.reason) names
        let result := Sed.edit commands (given 'n' || script = "#n" || script.startsWith "#n\n") (readable.flatMap lines)
        { output := result.output, errors
          status := if result.status ≠ 0 then result.status else if errors.isEmpty then 0 else 2
          millis := if result.ended then 0 else 1000000000
          consumed := t.takesInput names }

end SeedCorpus.StandIn.Tool
