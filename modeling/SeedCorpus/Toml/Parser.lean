/-
  From the text of a TOML document to its table.

  `parse` reads the lines of a document, each an assignment or a header with blanks and a comment around it, and puts the
  tables together.  Arrays may go over several lines; tables in braces may not.  Values can be nested 79 levels deep.

  The readers of repeated parts carry a number of steps; it starts out above the length of the text, and each step takes at
  least one character.
-/
import SeedCorpus.Toml.Moment
import SeedCorpus.Toml.Table
import SeedCorpus.Toml.Text

namespace SeedCorpus.Toml

/-! ## Blanks and comments -/

/-- What follows a comment and the characters in front of its line end. -/
def skipComment : List Char → List Char
  | '#' :: rest => rest.dropWhile isPrintable
  | s => s

/-- What follows the end of a line, in front of which blanks and a comment may stand. The end of the text will do. -/
def endLine (s : List Char) : Option (List Char) :=
  match skipComment (s.dropWhile isBlank) with
  | [] => some []
  | rest => afterNewline rest

/-- What follows blanks, newlines and comments. -/
def skipTrivia : Nat → List Char → List Char
  | 0, s => s
  | steps + 1, s =>
    match s with
    | '#' :: _ =>
      match afterNewline (skipComment s) with
      | some rest => skipTrivia steps rest
      | none => s
    | c :: rest =>
      if isBlank c then skipTrivia steps rest
      else
        match afterNewline s with
        | some below => skipTrivia steps below
        | none => s
    | [] => []

/-- What follows blanks, newlines and comments, with enough steps for any text. -/
def skipAllTrivia (s : List Char) : List Char := skipTrivia (s.length + 1) s

/-! ## Values -/

/-- Whether a character can stand in a value that has no quotes or brackets. -/
def isWordChar (c : Char) : Bool := isBareKeyChar c || c = '+' || c = '.' || c = ':'

/-- A value that has no quotes or brackets. A date takes in a time behind one blank. -/
def readWord : Reader Value := fun s =>
  let front := s.takeWhile isWordChar
  let rest := s.dropWhile isWordChar
  match Moment.date front, rest with
  | some [], ' ' :: c :: more =>
    if Number.isDigit c then
      let whole := front ++ ' ' :: (c :: more).takeWhile isWordChar
      if Moment.isMoment whole then some (.moment (String.ofList whole), (c :: more).dropWhile isWordChar) else none
    else some (.moment (String.ofList front), rest)
  | _, _ =>
    if front = "true".toList then some (.boolean true, rest)
    else if front = "false".toList then some (.boolean false, rest)
    else if Moment.isMoment front then some (.moment (String.ofList front), rest)
    else if Number.isFloat front then some (.float (String.ofList front), rest)
    else (Number.integer front).map fun n => (.integer n, rest)

/-- The items of an array up to its closing bracket; the last one may have a comma behind it. -/
def readItems (item : Reader Value) : Nat → Reader (List Value)
  | 0, _ => none
  | steps + 1, s => do
    match skipAllTrivia s with
    | ']' :: rest => some ([], rest)
    | s =>
      let (v, s) ← item s
      match skipAllTrivia s with
      | ',' :: rest =>
        let (others, rest) ← readItems item steps rest
        return (v :: others, rest)
      | ']' :: rest => some ([v], rest)
      | _ => none

/-- A key, an equals sign and a value, with blanks around the parts. -/
def readAssignment (value : Reader Value) : Reader Assignment := fun s => do
  let (parts, s) ← readKey maxKeyParts s
  match s, parts.getLast? with
  | '=' :: rest, some key =>
    let (v, rest) ← value (rest.dropWhile isBlank)
    return ({ path := parts.dropLast, key, value := v }, rest.dropWhile isBlank)
  | _, _ => none

/-- The assignments of a table in braces up to its closing brace, with no comma behind the last one. -/
def readPairs (value : Reader Value) : Nat → Reader (List Assignment)
  | 0, _ => none
  | steps + 1, s => do
    let (a, s) ← readAssignment value s
    match s with
    | ',' :: rest =>
      let (others, rest) ← readPairs value steps rest
      return (a :: others, rest)
    | '}' :: rest => some ([a], rest)
    | _ => none

/-- The levels of arrays and tables in braces that a value can have. -/
def maxDepth : Nat := 79

/-- A value with at most the given number of levels of arrays and tables in braces. -/
def readValue : Nat → Reader Value
  | depth, '[' :: rest =>
    match depth with
    | 0 => none
    | depth + 1 => (readItems (readValue depth) (rest.length + 1) rest).map fun (vs, rest) => (.array vs, rest)
  | depth, '{' :: rest =>
    match depth, rest.dropWhile isBlank with
    | 0, _ => none
    | _ + 1, '}' :: rest => some (.table [], rest)
    | depth + 1, rest => do
      let (pairs, rest) ← readPairs (readValue depth) (rest.length + 1) rest
      return (← tableOf pairs, rest)
  | _, s =>
    match s with
    | '\x22' :: _ | '\x27' :: _ => (readText s).map fun (t, rest) => (.text t, rest)
    | _ => readWord s

/-! ## Lines -/

/-- The key of a header and what follows its closing brackets. -/
def readHeaderKey (brackets : List Char) (s : List Char) : Option (List String × String × List Char) := do
  let (parts, s) ← readKey maxKeyParts s
  let key ← parts.getLast?
  if brackets.isPrefixOf s then some (parts.dropLast, key, s.drop brackets.length) else none

/-- A header. -/
def readHeader : Reader Header
  | '[' :: '[' :: rest => do
    let (path, key, rest) ← readHeaderKey [']', ']'] rest
    return (.element path key, rest)
  | '[' :: rest => do
    let (path, key, rest) ← readHeaderKey [']'] rest
    return (.single path key, rest)
  | _ => none

/-- The lines of a document. -/
def readLines : Nat → List Char → Option (List Line)
  | 0, _ => none
  | steps + 1, s => do
    match s.dropWhile isBlank with
    | [] => some []
    | '[' :: rest =>
      let (h, rest) ← readHeader ('[' :: rest)
      return .header h :: (← readLines steps (← endLine rest))
    | c :: rest =>
      if c = '#' || c = '\n' || c = '\r' then readLines steps (← endLine (c :: rest))
      else
        let (a, rest) ← readAssignment (readValue maxDepth) (c :: rest)
        return .assignment a :: (← readLines steps (← endLine rest))

/-- The text without a byte order mark in front. -/
def dropByteOrderMark : List Char → List Char
  | c :: rest => if c = Char.ofNat 0xFEFF then rest else c :: rest
  | [] => []

/-- The table of a document. -/
def parse (text : String) : Option Table := do
  let s := dropByteOrderMark text.toList
  tableOfLines (← readLines (s.length + 1) s)

end SeedCorpus.Toml
