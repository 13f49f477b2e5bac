/-
  A stand-in for `grep`, which searches lines for patterns.

  Lines that have a match are chosen, or all others.  The status tells whether a line was chosen: zero if so, one if not, two
  if something went wrong.
-/
import SeedCorpus.StandIn.Tool.Pattern.Written
import SeedCorpus.StandIn.Tool.Streams

namespace SeedCorpus.StandIn.Tool

namespace Grep

/-- What is searched for and how it is shown. -/
structure Search where
  /-- What lines are searched for. -/
  pattern : Pattern
  /-- Whether the lines without a match are chosen. -/
  inverted : Bool
  /-- Whether only the matches are shown. -/
  matchesOnly : Bool
  /-- Whether lines are numbered. -/
  numbered : Bool
  /-- Whether it is shown how many bytes stand in front. -/
  measured : Bool
  /-- The byte at the end of a line. -/
  ending : UInt8
  /-- How many lines are chosen at most. -/
  most : Option Nat
  /-- How many lines are shown in front of a chosen one. -/
  before : Nat
  /-- How many lines are shown after a chosen one. -/
  after : Nat

/-- The lines of a stream without their ends, given the bytes that end lines. -/
def linesEnding (ends : UInt8 → Bool) (bytes : Bytes) : List Bytes :=
  let whole := bytes.foldr (fun b below =>
    match below with
    | l :: more => if ends b then [b] :: l :: more else (b :: l) :: more
    | [] => [[b]]) []
  whole.map fun line => if line.getLast?.any ends then line.dropLast else line

/-- Whether a line is chosen. -/
def Search.chooses (s : Search) (line : Bytes) : Bool := s.pattern.occursIn line != s.inverted

/-- The matches in a line that are not empty, from left to right, each with its place. The first argument is above the length
of the line, the second one the place that the line is cut off at. -/
def allMatches (p : Pattern) : Nat → Nat → Option UInt8 → Bytes → List (Nat × Bytes)
  | 0, _, _, _ => []
  | steps + 1, place, behind, line =>
    match p.search behind line with
    | none => []
    | some found =>
      let place := place + found.before.length
      match found.matched.getLast?, found.after with
      | some b, after => (place, found.matched) :: allMatches p steps (place + found.matched.length) (some b) after
      | none, b :: after => allMatches p steps (place + 1) (some b) after
      | none, [] => []

/-- Marks of which no more than some are left, if a number is given. -/
def limit : Option Nat → List Bool → List Bool
  | _, [] => []
  | none, marks => marks
  | some left, mark :: marks =>
    let chosen := mark && 0 < left
    chosen :: limit (some (if chosen then left - 1 else left)) marks

/-- Which lines are chosen. -/
def Search.chosen (s : Search) (lines : List Bytes) : List Bool := limit s.most (lines.map s.chooses)

/-- Marks, and as many places behind each of them as it reaches; the second number is how far the last one still reaches. -/
def spread (reach : Nat) : Nat → List Bool → List Bool
  | _, [] => []
  | left, mark :: marks =>
    if mark then true :: spread reach reach marks else decide (0 < left) :: spread reach (left - 1) marks

/-- Lines with their numbers and places, given those of the first one. -/
def linePlaces : Nat → Nat → List Bytes → List (Nat × Nat × Bytes)
  | _, _, [] => []
  | number, place, line :: rest => (number, place, line) :: linePlaces (number + 1) (place + line.length + 1) rest

/-- What is shown of a line: `mark` stands behind its label, its number and its place. -/
def Search.row (s : Search) (label : String) (number : Nat) (mark : String) (place : Nat) (text : Bytes) : Bytes :=
  Utf8.encode ((if label.isEmpty then "" else label ++ mark) ++ (if s.numbered then toString number ++ mark else "")
    ++ (if s.measured then toString place ++ mark else "")) ++ text ++ [s.ending]

/-- What is shown of the lines of a file. Two dashes stand where lines are left out. -/
def Search.show (s : Search) (label : String) (lines : List Bytes) : Bytes :=
  let chosen := s.chosen lines
  let near := (spread s.after 0 chosen).zip (spread s.before 0 chosen.reverse).reverse
  let shown := (((linePlaces 1 0 lines).zip chosen).zip near).filter fun (_, ahead, behind) => ahead || behind
  let withContext := 0 < s.before || 0 < s.after
  let rows (number place : Nat) (line : Bytes) (isChosen : Bool) : Bytes :=
    if s.matchesOnly then
      if s.inverted || !isChosen then []
      else (allMatches s.pattern (line.length + 1) place none line).flatMap fun (place, text) =>
        s.row label number ":" place text
    else s.row label number (if isChosen then ":" else "-") place line
  let start : List Bytes × Option Nat := ([], none)
  let pieces := shown.foldl (fun (done, last) (((number, place, line), isChosen), _) =>
    let gap : Bool := withContext && last.any fun l => l + 1 ≠ number
    (rows number place line isChosen :: (if gap then [45, 45, newline] else []) :: done, some number)) start
  pieces.1.reverse.flatten

/-- The pattern of several texts, any of which may match. -/
def anyOf (fixed extended : Bool) (texts : List String) : Except PatternError Pattern := do
  let patterns ← texts.mapM fun text =>
    if fixed then .ok (Pattern.ofLiteral text) else (Pattern.ofText (.search extended) text).map (·.1)
  return patterns.tail.foldl .alt (patterns.headD (.oneOf []))

/-! ## What is searched -/

/-- How files that hold zero bytes are searched. -/
inductive BinaryRule where
  /-- Zero bytes end lines too, and no line is shown. -/
  | hidden
  /-- Like other files. -/
  | text
  /-- Not at all. -/
  | skipped
deriving DecidableEq, Repr, Inhabited

mutual

/-- The paths of all files in an entry. -/
def filesBelow (path : String) : Entry → List String
  | .file _ => [path]
  | .folder entries => filesIn path entries

/-- The paths of all files in the entries of a folder; the path of the folder itself may be left out. -/
def filesIn (path : String) : List (String × Entry) → List String
  | [] => []
  | (name, entry) :: rest =>
    filesBelow (if path.isEmpty then name else Path.join path name) entry ++ filesIn path rest

end

/-- The paths of the files that operands stand for where folders are searched too; without operands all files are. -/
def deepOperands (t : Task) (operands : List String) : List String :=
  if operands.isEmpty then
    match t.files.find "." with
    | .ok (.folder entries) => filesIn "" entries
    | _ => []
  else operands.flatMap fun path =>
    match path, t.files.find path with
    | "-", _ => [path]
    | _, .ok entry => filesBelow path entry
    | _, .error _ => [path]

/-- The letters of options that have names. -/
def optionNames : List (String × String) :=
  [("quiet", "q"), ("silent", "q"), ("count", "c"), ("invert-match", "v"), ("ignore-case", "i"), ("line-number", "n"),
    ("only-matching", "o"), ("word-regexp", "w"), ("line-regexp", "x"), ("fixed-strings", "F"), ("extended-regexp", "E"),
    ("basic-regexp", "G"), ("files-with-matches", "l"), ("files-without-match", "L"), ("no-messages", "s"),
    ("with-filename", "H"), ("no-filename", "h"), ("text", "a"), ("regexp", "e"), ("max-count", "m"),
    ("after-context", "A"), ("before-context", "B"), ("context", "C"),
    ("file", "f"), ("byte-offset", "b"), ("recursive", "r"), ("null-data", "z"), ("binary", "U"), ("binary-files", "O"),
    ("perl-regexp", "P"), ("directories", "d"), ("no-ignore-case", "U"), ("line-buffered", "U"), ("null", "Z"),
    ("initial-tab", "T")]

/-- The lines that tell how the tool is called. -/
def usage : String := "Usage: grep [OPTION]... PATTERNS [FILE]...\n" ++ helpHint "grep" ++ "\n"

/-- A word with a number as the number of lines around. -/
def numberWord (word : String) : String :=
  match word.toList with
  | '-' :: digits => if !digits.isEmpty && digits.all Char.isDigit then "-C" ++ String.ofList digits else word
  | _ => word

/-- The texts of patterns that options and operands give, or why a file of them cannot be read, and the other operands. -/
def patternTexts (t : Task) (options : List (Char × String)) (operands : List String) :
    Except String (List String × List String) := do
  let given := options.filter fun o => o.1 = 'e' || o.1 = 'f'
  let texts ← given.mapM fun (letter, value) =>
    if letter = 'e' then .ok (value.splitOn "\n")
    else
      match t.read value with
      | .ok bytes => .ok ((lines bytes).map fun line => Utf8.decode (bare line))
      | .error e => .error (value ++ ": " ++ e.reason)
  if given.isEmpty then return ((operands.take 1).flatMap (·.splitOn "\n"), operands.drop 1)
  else return (texts.flatten, operands)

/-- What is wrong with the numbers among options. -/
def badNumber? (options : List (Char × String)) : Option String :=
  options.findSome? fun (letter, value) =>
    if letter = 'm' && (naturalOf? value).isNone && !value.startsWith "-" then some "invalid max count"
    else if "ABC".toList.contains letter && (naturalOf? value).isNone then some (value ++ ": invalid context length argument")
    else none

end Grep

/-- Chooses lines. -/
def grep : Tool := fun t =>
  match optionsOf "eABCmfdDO" "EFGPHLIRTUZabchilnoqrsvwxyz" (t.args.map fun word => shortened Grep.optionNames (Grep.numberWord word)) with
  | .error cause => { errors := Utf8.encode ("grep: " ++ cause.message ++ "\n" ++ Grep.usage), status := 2 }
  | .ok (options, operands) =>
    let given (letter : Char) : Bool := (options.lookup letter).isSome
    let count (letter : Char) : Option Nat := (options.lookup letter).bind naturalOf?
    match Grep.patternTexts t options operands, Grep.badNumber? options with
    | .error text, _ | .ok _, some text => complain "grep" text 2
    | .ok (texts, operands), none =>
      if texts.isEmpty && !given 'f' then { errors := Utf8.encode Grep.usage, status := 2 }
      else
        match Grep.anyOf (given 'F') (given 'E' || given 'P') texts with
        | .error cause => complain "grep" cause.message 2
        | .ok p =>
          let p := if given 'i' || given 'y' then p.ignoringCase else p
          let p := if given 'w' then .seq (.edge .bareBehind) (.seq p (.edge .bareAhead)) else p
          let p := if given 'x' then .seq .lineStart (.seq p .lineEnd) else p
          let around := (count 'C').getD 0
          let search : Grep.Search := {
            pattern := p, inverted := given 'v', matchesOnly := given 'o', numbered := given 'n', measured := given 'b'
            ending := if given 'z' then 0 else newline, most := count 'm'
            before := (count 'B').getD around, after := (count 'A').getD around }
          let deep := given 'r' || given 'R'
          let names := if deep then Grep.deepOperands t operands else if operands.isEmpty then ["-"] else operands
          let rule : Grep.BinaryRule :=
            if given 'a' || given 'z' || options.contains ('O', "text") then .text
            else if given 'I' || options.contains ('O', "without-match") then .skipped
            else .hidden
          let skipsFolders := options.contains ('d', "skip")
          let contents := (t.contents names).filter fun (_, content) =>
            match content with
            | .error .isFolder => !skipsFolders
            | _ => true
          let labelOf (name : String) : String := if name = "-" then "(standard input)" else name
          let several := operands.length > 1 || (deep && names ≠ operands)
          let withName := (given 'H' || several) && !given 'h'
          let quiet := given 'q' || given 'l' || given 'L' || given 'c'
          let results : List (Bool × Bytes × String) := contents.map fun (name, content) =>
            match content with
            | .error e => (false, [], if given 's' then "" else "grep: " ++ name ++ ": " ++ e.reason ++ "\n")
            | .ok bytes =>
              if !quiet && t.isTarget name then
                (false, [], "grep: " ++ labelOf name ++ ": input file is also the output\n")
              else
              let isBinary : Bool := rule ≠ .text && bytes.contains 0
              let lines :=
                if isBinary && rule = .skipped then []
                else Grep.linesEnding (fun b => b = search.ending || (isBinary && b = 0)) bytes
              let found := (search.chosen lines).count true
              let label := if withName then labelOf name else ""
              let line (text : String) : Bytes := Utf8.encode (text ++ "\n")
              let output :=
                if given 'q' then []
                else if given 'l' || given 'L' then if (found = 0) = given 'L' then line (labelOf name) else []
                else if given 'c' then line ((if withName then label ++ ":" else "") ++ toString found)
                else if isBinary then []
                else search.show label lines
              let complaint := if isBinary && !quiet && 0 < found then "grep: " ++ labelOf name ++ ": binary file matches\n" else ""
              (0 < found, output, complaint)
          let success := results.any (·.1)
          let failed := contents.any fun (name, content) => !content.isOk || (!quiet && t.isTarget name)
          { output := results.flatMap (·.2.1)
            errors := Utf8.encode (String.join (results.map (·.2.2)))
            status := if given 'q' && success then 0 else if failed then 2 else if success then 0 else 1
            consumed := t.takesInput names }

end SeedCorpus.StandIn.Tool
