/-
  The stand-in shell: from the text of a script to its commands.

  `nextCommand` reads one command of a script after the other.  The readers of the parts of a command take the reader of a
  list of commands as an argument; `readList` closes the circle with a number of levels, which is above the length of the
  text.
-/
import SeedCorpus.StandIn.Shell.Syntax
import SeedCorpus.Text.Reader

namespace SeedCorpus.StandIn.Shell

/-! ## Characters and gaps -/

/-- Whether a character can begin the name of a variable. -/
def isNameStart (c : Char) : Bool := c.isAlpha || c = '_'

/-- Whether a character can stand in the name of a variable. -/
def isNameChar (c : Char) : Bool := c.isAlphanum || c = '_'

/-- Whether a character ends a word. -/
def isBreak (c : Char) : Bool := " \t\n;&|<>()".toList.contains c

/-- What follows blanks within a line. -/
def skipBlanks : List Char → List Char
  | '\\' :: '\n' :: rest => skipBlanks rest
  | c :: rest => if c = ' ' || c = '\t' then skipBlanks rest else c :: rest
  | [] => []

/-- What follows blanks and a comment. -/
def skipGap (s : List Char) : List Char :=
  match skipBlanks s with
  | '#' :: rest => rest.dropWhile (· ≠ '\n')
  | s => s

/-- What follows blanks, comments and the ends of lines, of which there are fewer than the first argument. -/
def skipLinesFrom : Nat → List Char → List Char
  | 0, s => s
  | steps + 1, s =>
    match skipGap s with
    | '\n' :: rest => skipLinesFrom steps rest
    | s => s

/-- What follows blanks, comments and the ends of lines. -/
def skipLines (s : List Char) : List Char := skipLinesFrom (s.length + 1) s

/-- What follows a word that means something by itself, with gaps in front of it. -/
def keyword? (word : String) (s : List Char) : Option (List Char) :=
  let s := skipLines s
  if s.takeWhile (!isBreak ·) = word.toList then some (s.dropWhile (!isBreak ·)) else none

/-- What follows a sign, with gaps in front of it. -/
def sign? (sign : String) (s : List Char) : Option (List Char) := afterWord sign (skipLines s)

/-! ## Words -/

/-- Where pieces stand, which decides where they end. -/
inductive Setting where
  /-- In a word, up to a character that ends words. -/
  | word
  /-- In double quotes. -/
  | quotes
  /-- In a text that is the input of a command. -/
  | here
  /-- In braces, in quotes or not. -/
  | braces (quoted : Bool)
  /-- In an arithmetic expression, in a number of parentheses of its own. -/
  | sum (depth : Nat)
deriving DecidableEq, Repr, Inhabited

/-- Whether pieces count as quoted. -/
def Setting.quoted : Setting → Bool
  | .word => false
  | .quotes => true
  | .here => true
  | .braces quoted => quoted
  | .sum _ => true

/-- The rule of a sign behind a parameter in braces. -/
def fallbackOf? : Char → Option Fallback
  | '-' => some .use
  | '=' => some .assign
  | '+' => some .whenSet
  | '?' => some .refuse
  | _ => none

/-- Whether a character names a parameter by itself. -/
def isSpecial (c : Char) : Bool := "@*#?$!-".toList.contains c || c.isDigit

/-- The name of a parameter in front of a text, and the rest. -/
def readName (s : List Char) : Option (String × List Char) :=
  match s with
  | [] => none
  | c :: rest =>
    if isNameStart c then some (String.ofList (s.takeWhile isNameChar), s.dropWhile isNameChar)
    else if isSpecial c then some (String.singleton c, rest)
    else none

/-- The name of a parameter in front of a text in braces, and the rest. -/
def readNameInBraces (s : List Char) : Option (String × List Char) :=
  let digits := s.takeWhile Char.isDigit
  if digits.isEmpty then readName s else some (String.ofList digits, s.drop digits.length)

/-- What a dollar sign begins, given what follows it. `pieces` reads pieces and `list` a list of commands. -/
def readDollar (list : Reader Command) (pieces : Setting → Reader Word) (quoted : Bool) : Reader Piece
  | '(' :: '(' :: rest => do
    let (word, rest) ← pieces (.sum 0) rest
    return (.arithmetic word quoted, rest)
  | '(' :: rest => do
    let (command, rest) ← list rest
    return (.outputOf command quoted, ← sign? ")" rest)
  | '{' :: '#' :: '}' :: rest => some (.value "#" quoted, rest)
  | '{' :: '#' :: rest => do
    let (name, rest) ← readNameInBraces rest
    return (.length name quoted, ← afterChar '}' rest)
  | '{' :: rest => do
    let (name, rest) ← readNameInBraces rest
    let trimmed (atEnd longest : Bool) (rest : List Char) : Option (Piece × List Char) := do
      let (pattern, rest) ← pieces (.braces false) rest
      return (.trimmed name atEnd longest pattern quoted, rest)
    match rest with
    | '}' :: rest => some (.value name quoted, rest)
    | '%' :: '%' :: rest => trimmed true true rest
    | '%' :: rest => trimmed true false rest
    | '#' :: '#' :: rest => trimmed false true rest
    | '#' :: rest => trimmed false false rest
    | ':' :: c :: rest =>
      let rule ← fallbackOf? c
      let (word, rest) ← pieces (.braces quoted) rest
      return (.fallback name rule true word quoted, rest)
    | c :: rest =>
      let rule ← fallbackOf? c
      let (word, rest) ← pieces (.braces quoted) rest
      return (.fallback name rule false word quoted, rest)
    | [] => none
  | s =>
    match readName s with
    | some (name, rest) => some (.value name quoted, rest)
    | none => some (.text "$" quoted, s)

/-- The script in backquotes, without the backslashes that it needs there, and what follows the closing quote. -/
def readBackquoted : Reader (List Char)
  | [] => none
  | '\x60' :: rest => some ([], rest)
  | '\\' :: c :: rest => do
    let (s, rest) ← readBackquoted rest
    return (if c = '\x60' || c = '$' || c = '\\' then c :: s else '\\' :: c :: s, rest)
  | c :: rest => do
    let (s, rest) ← readBackquoted rest
    return (c :: s, rest)

/-- What one step through a word finds. -/
inductive Found where
  /-- The end of the setting. -/
  | ending
  /-- Pieces, and the setting in which the reading goes on. -/
  | pieces (front : Word) (next : Setting)

/-- What the first character of a text begins in a setting. `pieces` reads pieces and `list` a list of commands. -/
def readPiece (list : Reader Command) (pieces : Setting → Reader Word) (setting : Setting) (c : Char) : Reader Found :=
  fun rest => do
    let literal := Found.pieces [.text (String.singleton c) setting.quoted] setting
    match c, rest with
    | '\\', '\n' :: rest => some (.pieces [] setting, rest)
    | '\\', d :: rest =>
      let kept := match setting with
        | .quotes => !"$\x60\x22\\".toList.contains d
        | .here => !"$\x60\\".toList.contains d
        | _ => false
      some (.pieces [.text (if kept then String.ofList ['\\', d] else String.singleton d) true] setting, rest)
    | '$', rest =>
      let (piece, rest) ← readDollar list pieces setting.quoted rest
      return (.pieces [piece] setting, rest)
    | '\x60', rest =>
      let (script, rest) ← readBackquoted rest
      let (command, _) ← list script
      return (.pieces [.outputOf command setting.quoted] setting, rest)
    | '\x22', rest =>
      if setting = .here then return (literal, rest)
      if setting = .quotes then return (.ending, rest)
      let (word, rest) ← pieces .quotes rest
      return (.pieces (if word.isEmpty then [.text "" true] else word) setting, rest)
    | c, rest =>
      if c = '\x27' && !setting.quoted then
        let text := String.ofList (rest.takeWhile (· ≠ '\x27'))
        return (.pieces [.text text true] setting, ← afterChar '\x27' (rest.dropWhile (· ≠ '\x27')))
      match setting with
      | .word => return if isBreak c then (.ending, c :: rest) else (literal, rest)
      | .quotes | .here => return (literal, rest)
      | .braces _ => return (if c = '}' then .ending else literal, rest)
      | .sum depth =>
        let text := [Piece.text (String.singleton c) true]
        match c, depth, rest with
        | '(', depth, rest => return (.pieces text (.sum (depth + 1)), rest)
        | ')', depth + 1, rest => return (.pieces text (.sum depth), rest)
        | ')', 0, ')' :: rest => return (.ending, rest)
        | ')', 0, _ => none
        | _, _, rest => return (literal, rest)

/-- Pieces up to where their setting ends. The first argument is above the length of the text. -/
def readPieces (list : Reader Command) : Nat → Setting → Reader Word
  | 0, _, _ => none
  | _ + 1, setting, [] => if setting = .word || setting = .here then some ([], []) else none
  | steps + 1, setting, c :: rest => do
    match ← readPiece list (readPieces list steps) setting c rest with
    | (.ending, rest) => return ([], rest)
    | (.pieces front next, rest) =>
      let (more, rest) ← readPieces list steps next rest
      return (front ++ more, rest)

/-- A word. -/
def readWord (list : Reader Command) : Reader Word := fun s => do
  match s with
  | [] => none
  | c :: _ => if isBreak c then none else readPieces list (s.length + 1) .word s

/-! ## Simple commands -/

/-- The lines of a text that the script gives to a command, up to the line that ends it, and what follows that line. Tabs in
front of the lines are left out if `indented`. The first argument is above the number of lines. -/
def takeHere (indented : Bool) (ending : List Char) : Nat → List Char → List Char × List Char
  | 0, s => ([], s)
  | steps + 1, s =>
    let s := if indented then s.dropWhile (· = '\t') else s
    let line := s.takeWhile (· ≠ '\n')
    let rest := s.drop line.length
    if line = ending then ([], rest.drop 1)
    else if rest.isEmpty then (line, [])
    else
      let (more, rest) := takeHere indented ending steps (rest.drop 1)
      (line ++ '\n' :: more, rest)

/-- The text that the script gives to a command from the next line on, and the script without it. -/
def readHere (list : Reader Command) : Reader Word := fun s => do
  let (indented, s) : Bool × List Char := match s with
    | '-' :: rest => (true, rest)
    | s => (false, s)
  let s := skipBlanks s
  let (word, rest) ← match s with
    | [] => none
    | _ => readPieces list (s.length + 1) .word s
  let parts ← word.mapM fun
    | .text s quoted => some (s, quoted)
    | _ => none
  let line := rest.takeWhile (· ≠ '\n')
  let ending := (String.join (parts.map (·.1))).toList
  let (text, after) := takeHere indented ending (rest.length + 1) (rest.drop (line.length + 1))
  let rest := line ++ '\n' :: after
  if parts.any (·.2) then return ([.text (String.ofList text) true], rest)
  let (word, _) ← readPieces list (text.length + 1) .here text
  return (word, rest)

/-- A redirection. -/
def readRedirection (list : Reader Command) : Reader Redirection := fun s => do
  let digits := s.takeWhile Char.isDigit
  let number (default : Nat) : Nat :=
    if digits.isEmpty then default else digits.foldl (fun n c => 10 * n + (c.toNat - '0'.toNat)) 0
  let (stream, way, rest) : Nat × Redirect × List Char ← match s.dropWhile Char.isDigit with
    | '>' :: '>' :: rest => some (number 1, .append, rest)
    | '>' :: '&' :: rest => some (number 1, .same, rest)
    | '>' :: '|' :: rest => some (number 1, .clobber, rest)
    | '>' :: rest => some (number 1, .output, rest)
    | '<' :: '&' :: rest => some (number 0, .same, rest)
    | '<' :: '>' :: rest => some (number 0, .both, rest)
    | '<' :: '<' :: rest => some (number 0, .here, rest)
    | '<' :: rest => some (number 0, .input, rest)
    | _ => none
  let (target, rest) ← if way = .here then readHere list rest else readWord list (skipBlanks rest)
  return ((stream, way, target), rest)

/-- Redirections, as many as there are. The first argument is above their number. -/
def readRedirections (list : Reader Command) : Nat → List Char → List Redirection × List Char
  | 0, s => ([], s)
  | steps + 1, s =>
    match readRedirection list (skipBlanks s) with
    | some (r, rest) =>
      let (more, rest) := readRedirections list steps rest
      (r :: more, rest)
    | none => ([], s)

/-- The name that an assignment in front of a text sets, and what follows the equals sign. -/
def readAssigned (s : List Char) : Option (String × List Char) :=
  match s with
  | [] => none
  | c :: _ =>
    match s.dropWhile isNameChar with
    | '=' :: rest => if isNameStart c then some (String.ofList (s.takeWhile isNameChar), rest) else none
    | _ => none

/-- A command without commands in it, given the number of lines behind it and its parts so far, last ones first. The
argument behind these lines is above the number of parts. -/
def readSimple (list : Reader Command) (below : Nat) :
    Nat → List (String × Word) → List Word → List Redirection → Reader Command
  | 0, _, _, _, _ => none
  | steps + 1, assignments, words, redirections, s => do
    let s := skipBlanks s
    match readRedirection list s with
    | some (r, rest) => readSimple list below steps assignments words (r :: redirections) rest
    | none =>
      match (if words.isEmpty then readAssigned s else none) with
      | some (name, rest) =>
        let (value, rest) ← readPieces list (rest.length + 1) .word rest
        readSimple list below steps ((name, value) :: assignments) words redirections rest
      | none =>
        match (if s.head? = some '#' then none else readWord list s) with
        | some (word, rest) => readSimple list below steps assignments (word :: words) redirections rest
        | none =>
          if assignments.isEmpty && words.isEmpty && redirections.isEmpty then none
          else some (.simple below assignments.reverse words.reverse redirections.reverse, s)

/-! ## Commands with commands in them -/

/-- What follows the condition of a branch. The first argument is above the number of conditions. -/
def readBranches (list : Reader Command) : Nat → Reader Command
  | 0, _ => none
  | steps + 1, s => do
    let (condition, s) ← list s
    let (body, s) ← list (← keyword? "then" s)
    match keyword? "elif" s, keyword? "else" s with
    | some s, _ =>
      let (alternative, s) ← readBranches list steps s
      return (.branch condition body alternative, s)
    | none, some s =>
      let (alternative, s) ← list s
      return (.branch condition body alternative, ← keyword? "fi" s)
    | none, none => return (.branch condition body .skip, ← keyword? "fi" s)

/-- The body of a loop. -/
def readBody (list : Reader Command) : Reader Command := fun s => do
  let (body, s) ← list (← keyword? "do" s)
  return (body, ← keyword? "done" s)

/-- Words up to the end of the line. The first argument is above their number. -/
def readWords (list : Reader Command) : Nat → List Char → List Word × List Char
  | 0, s => ([], s)
  | steps + 1, s =>
    match readWord list (skipBlanks s) with
    | some (word, rest) =>
      let (more, rest) := readWords list steps rest
      (word :: more, rest)
    | none => ([], skipBlanks s)

/-- The patterns in front of a case, up to the closing parenthesis. The first argument is above their number. -/
def readPatterns (list : Reader Command) : Nat → Reader (List Word)
  | 0, _ => none
  | steps + 1, s => do
    let (word, s) ← readWord list (skipBlanks s)
    match skipBlanks s with
    | '|' :: rest =>
      let (more, rest) ← readPatterns list steps rest
      return (word :: more, rest)
    | ')' :: rest => some ([word], rest)
    | _ => none

/-- The cases of a choice. The first argument is above their number. -/
def readCases (list : Reader Command) : Nat → Reader (List (List Word × Command))
  | 0, _ => none
  | steps + 1, s => do
    match keyword? "esac" s with
    | some rest => some ([], rest)
    | none =>
      let s := (sign? "(" s).getD (skipLines s)
      let (patterns, s) ← readPatterns list (s.length + 1) s
      let (body, s) ← list s
      match sign? ";;" s with
      | some rest =>
        let (more, rest) ← readCases list steps rest
        return ((patterns, body) :: more, rest)
      | none => return ([(patterns, body)], ← keyword? "esac" s)

/-- What follows the name of a loop over words: the words, or all arguments, and the body. -/
def readEach (list : Reader Command) (name : String) : Reader Command := fun s => do
  let (words, s) := match keyword? "in" s with
    | some rest => readWords list (rest.length + 1) rest
    | none => ([[.value "@" true]], skipBlanks s)
  let s := (afterChar ';' s).getD s
  let (body, s) ← readBody list s
  return (.each name words body, s)

/-- A command that begins with a word or a sign of its own, if there is one. -/
def readCompound (list : Reader Command) : Reader Command := fun s => do
  match sign? "(" s, keyword? "\x7b" s, keyword? "if" s, keyword? "while" s, keyword? "until" s with
  | some s, _, _, _, _ =>
    let (body, s) ← list s
    return (.scope body, ← sign? ")" s)
  | _, some s, _, _, _ =>
    let (body, s) ← list s
    return (body, ← keyword? "\x7d" s)
  | _, _, some s, _, _ => readBranches list (s.length + 1) s
  | _, _, _, some s, _ =>
    let (condition, s) ← list s
    let (body, s) ← readBody list s
    return (.loop false condition body, s)
  | _, _, _, _, some s =>
    let (condition, s) ← list s
    let (body, s) ← readBody list s
    return (.loop true condition body, s)
  | none, none, none, none, none =>
    match keyword? "for" s, keyword? "case" s with
    | some s, _ =>
      let (name, s) ← readName (skipBlanks s)
      readEach list name s
    | none, some s =>
      let (word, s) ← readWord list (skipBlanks s)
      let s ← keyword? "in" s
      let (cases, s) ← readCases list (s.length + 1) s
      return (.choose word cases, s)
    | none, none => none

/-- The name of a command that is defined, and what follows the parentheses. -/
def readDefined (s : List Char) : Option (String × List Char) := do
  let (name, rest) ← readName (skipBlanks s)
  let rest ← afterChar '(' (skipBlanks rest)
  return (name, ← afterChar ')' (skipBlanks rest))

/-- The words that mean something by themselves where a command begins. -/
def keywords : List String :=
  ["!", "case", "do", "done", "elif", "else", "esac", "fi", "for", "if", "then", "until", "while", "\x7b", "\x7d"]

/-- A command. -/
def readCommand (list : Reader Command) : Reader Command := fun s => do
  match readCompound list s with
  | some (command, s) =>
    match readRedirections list (s.length + 1) s with
    | ([], s) => some (command, s)
    | (redirections, s) => some (.redirected command redirections, s)
  | none =>
    if keywords.any fun word => (keyword? word s).isSome then none
    else
      match readDefined s with
      | some (name, s) =>
        let (body, s) ← readCompound list s
        return (.define name body, s)
      | none => readSimple list (s.count '\n') (s.length + 1) [] [] [] s

/-! ## Lists -/

/-- Commands in a row. The first argument is above their number. -/
def readStages (list : Reader Command) : Nat → Reader (List Command)
  | 0, _ => none
  | steps + 1, s => do
    let (command, s) ← readCommand list s
    match skipGap s with
    | '|' :: '|' :: rest => some ([command], '|' :: '|' :: rest)
    | '|' :: rest =>
      let (more, rest) ← readStages list steps (skipLines rest)
      return (command :: more, rest)
    | s => some ([command], s)

/-- Commands in a row, turned round if an exclamation mark stands in front. -/
def readPipe (list : Reader Command) : Reader Command := fun s => do
  let negated := keyword? "!" s
  let (stages, s) ← readStages list (s.length + 1) (skipLines (negated.getD s))
  let command := match stages with
    | [single] => single
    | stages => .pipe stages
  return (if negated.isSome then .not command else command, s)

/-- What follows a command and joins it with others. The first argument is above the number of signs that join. -/
def readJoined (list : Reader Command) : Nat → Command → Reader Command
  | 0, _, _ => none
  | steps + 1, first, s => do
    match skipGap s with
    | '&' :: '&' :: rest =>
      let (second, rest) ← readPipe list (skipLines rest)
      readJoined list steps (.and first second) rest
    | '|' :: '|' :: rest =>
      let (second, rest) ← readPipe list (skipLines rest)
      readJoined list steps (.or first second) rest
    | s => some (first, s)

/-- The commands of a list, up to the end of the line unless `across`. The first argument is above their number. -/
def readItems (list : Reader Command) (across : Bool) : Nat → Reader (List Command)
  | 0, _ => none
  | steps + 1, s => do
    let goOn (command : Command) (rest : List Char) : Option (List Command × List Char) := do
      let (more, rest) ← readItems list across steps rest
      return (command :: more, rest)
    match readPipe list (skipLines s) with
    | none => some ([], skipLines s)
    | some (first, s) =>
      let (command, s) ← readJoined list (s.length + 1) first s
      match s with
      | ';' :: ';' :: _ => some ([command], s)
      | ';' :: rest =>
        if !across && (skipGap rest).head? = some '\n' then some ([command], skipGap rest) else goOn command rest
      | '&' :: rest =>
        let command := .beside command
        if !across && (skipGap rest).head? = some '\n' then some ([command], skipGap rest) else goOn command rest
      | '\n' :: rest => if across then goOn command rest else some ([command], s)
      | s => some ([command], s)

/-- A list of commands, with at most as many levels of commands in commands as the first argument says. -/
def readList : Nat → Reader Command
  | 0, _ => none
  | levels + 1, s => do
    let (commands, rest) ← readItems (readList levels) true (s.length + 1) s
    return (.sequence commands, rest)

/-! ## Scripts -/

/-- Whether quotes are open behind a text; `quote` are those that are open in front of it. -/
def endsInQuotes (quote : Option Char) : List Char → Bool
  | [] => quote.isSome
  | '\\' :: c :: rest => if quote = some '\x27' then endsInQuotes quote (c :: rest) else endsInQuotes quote rest
  | c :: rest =>
    if quote = some c then endsInQuotes none rest
    else if quote.isNone && (c = '\x27' || c = '\x22') then endsInQuotes (some c) rest
    else endsInQuotes quote rest

/-- Whether no command can begin in front of a text that is not empty. -/
def isObstacle (s : List Char) : Bool :=
  match s with
  | [] => false
  | c :: _ =>
    ";&|)".toList.contains c
      || ["do", "done", "elif", "else", "esac", "fi", "then", "\x7d"].any fun word => (keyword? word s).isSome

/-- What is in the way in front of a text that is no command. -/
def obstacle (s : List Char) : String :=
  let sign := match s with
    | ';' :: ';' :: _ => ";;"
    | '&' :: '&' :: _ => "&&"
    | '|' :: '|' :: _ => "||"
    | s => String.ofList (s.takeWhile (!isBreak ·))
  let sign := if sign.isEmpty then String.ofList (s.take 1) else sign
  "\x22" ++ sign ++ "\x22 unexpected"

/-- The next command of a script and what follows it, if there is one, or what is wrong there and what follows the place. -/
def nextCommand (s : List Char) : Except (String × List Char) (Option (Command × List Char)) :=
  match skipLines s with
  | [] => .ok none
  | s =>
    match readItems (readList (s.length + 1)) false (s.length + 1) s with
    | some ([], rest) => .error (trouble rest)
    | some (commands, rest) =>
      match skipGap rest with
      | [] => .ok (some (.sequence commands, []))
      | '\n' :: rest => .ok (some (.sequence commands, rest))
      | rest => .error (trouble rest)
    | none => .error (trouble [])
where
  /-- What is wrong in front of a text. -/
  trouble (rest : List Char) : String × List Char :=
    if endsInQuotes none s then ("Unterminated quoted string", [])
    else if isObstacle rest then (obstacle rest, rest)
    else ("end of file unexpected", [])

end SeedCorpus.StandIn.Shell
