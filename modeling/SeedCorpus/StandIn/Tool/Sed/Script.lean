/-
  The stand-in for `sed`: scripts for editing lines.

  A script is a list of commands.  Each has an address that says for which lines it is meant, and does something to the line
  at hand.  Commands end at a semicolon, at the end of a line or in front of a closing brace.
-/
import SeedCorpus.StandIn.Tool.Pattern.Written

namespace SeedCorpus.StandIn.Tool.Sed

/-! ## Commands -/

/-- A pattern to search for; none stands for the one that was used last. -/
abbrev Wanted := Option Pattern

/-- A line that an address names. -/
inductive Point where
  /-- The line of a number. -/
  | line (n : Nat)
  /-- Every line at a distance from the first of them. -/
  | every (first distance : Nat)
  /-- The last line. -/
  | final
  /-- A line with a match. -/
  | matching (p : Wanted)
deriving Repr, Inhabited

/-- Where a span of lines ends. -/
inductive Limit where
  /-- At a line. -/
  | point (p : Point)
  /-- So many lines further on. -/
  | more (n : Nat)
  /-- At a line whose number is a multiple. -/
  | multiple (n : Nat)
deriving Repr, Inhabited

/-- The lines that a command is meant for. -/
inductive Address where
  /-- Every line. -/
  | every
  /-- The lines that a point names. -/
  | at (p : Point)
  /-- The lines from one to another. -/
  | span (first : Point) (last : Limit)
deriving Repr, Inhabited

/-- How letters are changed. -/
inductive Casing where
  /-- They are not. -/
  | keep
  /-- They become capital letters. -/
  | upper
  /-- They become small letters. -/
  | lower
deriving DecidableEq, Repr, Inhabited

/-- A part of a replacement. -/
inductive Part where
  /-- Bytes. -/
  | plain (bytes : Bytes)
  /-- What a group matched; zero is the whole match. -/
  | group (n : Nat)
  /-- Changes the letters of what follows. -/
  | casing (c : Casing)
  /-- Changes the next letter. -/
  | casingOnce (c : Casing)
deriving Repr, Inhabited

/-- What a command does. -/
inductive Action where
  /-- Replaces matches: the one of a number, or it and all that follow. -/
  | replace (p : Wanted) (parts : List Part) (number : Nat) (all shown : Bool)
  /-- Replaces bytes by others. -/
  | transliterate (first second : Bytes)
  /-- Deletes the line. -/
  | delete
  /-- Deletes up to the first newline. -/
  | deleteFirst
  /-- Prints the line. -/
  | print
  /-- Prints up to the first newline. -/
  | printFirst
  /-- Prints the number of the line. -/
  | number
  /-- Goes on to the next line. -/
  | next
  /-- Puts the next line behind this one. -/
  | join
  /-- Puts the line aside, in place of what is there or behind it. -/
  | hold (behind : Bool)
  /-- Takes what was put aside, in place of the line or behind it. -/
  | take (behind : Bool)
  /-- Exchanges the line with what was put aside. -/
  | exchange
  /-- Empties the line. -/
  | clear
  /-- Prints a text at the end. -/
  | append (text : Bytes)
  /-- Prints a text at once. -/
  | insert (text : Bytes)
  /-- Prints a text in place of the line, or of a span of lines. -/
  | change (text : Bytes)
  /-- Goes on at a label, or at the end of the script. -/
  | jump (label : String)
  /-- Goes on at a label if something was replaced. -/
  | jumpIf (label : String)
  /-- Goes on at a label if nothing was replaced. -/
  | jumpUnless (label : String)
  /-- Marks a place. -/
  | label (name : String)
  /-- Begins a block. -/
  | opening
  /-- Ends a block. -/
  | closing
  /-- Ends the script, with the line shown or not. -/
  | quit (status : Nat) (shown : Bool)
deriving Repr, Inhabited

/-- A command. -/
structure Command where
  /-- Its place in the script. -/
  index : Nat := 0
  /-- The lines that it is meant for. -/
  address : Address
  /-- Whether it is meant for all other lines instead. -/
  negated : Bool
  /-- What it does. -/
  action : Action
deriving Repr, Inhabited

/-! ## Reading a script -/

/-- What is wrong with a script, and what follows the place where it is noticed. -/
structure Flaw where
  /-- The complaint. -/
  text : String
  /-- How many characters are left. -/
  left : Nat
deriving DecidableEq, Repr

/-- Takes something from the front of a script. -/
abbrev Scan (α : Type) := List Char → Except Flaw (α × List Char)

/-- Complains in front of what is left. -/
def flaw {α : Type} (text : String) (rest : List Char) : Except Flaw α := .error { text, left := rest.length }

/-- Whether a character is blank. -/
def isBlank (c : Char) : Bool := c = ' ' || c = '\t'

/-- Whether a character parts commands. -/
def isGap (c : Char) : Bool := isBlank c || c = ';' || c = '\n'

/-- Where a reading up to a mark is. -/
inductive Inside where
  /-- Not in brackets. -/
  | outside
  /-- At the beginning of brackets. -/
  | start
  /-- In brackets. -/
  | brackets
  /-- In a class in brackets. -/
  | className
deriving DecidableEq, Repr

/-- The place behind a character, with the next one. -/
def Inside.after (p : Inside) (c : Char) (next : Option Char) : Inside :=
  match p with
  | .outside => if c = '[' then .start else .outside
  | .start =>
    if c = '^' then .start
    else if c = '[' ∧ next = some ':' then .className
    else .brackets
  | .brackets =>
    if c = ']' then .outside
    else if c = '[' ∧ next = some ':' then .className
    else .brackets
  | .className => if c = ':' ∧ next = some ']' then .start else .className

/-- The text up to a mark that has no backslash in front of it and is not in brackets, and what follows the mark. A backslash
in front of the mark goes, a letter behind one that stands for a control character becomes that character, and other
backslashes stay. -/
def patternUpTo? (mark : Char) : Inside → List Char → Option (List Char × List Char)
  | _, [] => none
  | p, '\\' :: c :: rest => do
    let plain := p = .outside
    let (s, rest) ← patternUpTo? mark (if plain then p else p.after c rest.head?) rest
    if c = mark then some (c :: s, rest)
    else some ((match control? c with
      | some b => b :: s
      | none => '\\' :: c :: s), rest)
  | p, c :: rest => do
    if c = mark ∧ p = .outside then some ([], rest)
    else
      let (s, rest) ← patternUpTo? mark (p.after c rest.head?) rest
      return (c :: s, rest)
where
  /-- The control character of a letter. -/
  control? : Char → Option Char
    | 't' => some '\t'
    | 'f' => some '\x0c'
    | 'v' => some '\x0b'
    | 'a' => some '\x07'
    | 'r' => some '\r'
    | _ => none

/-- The text up to a mark that has no backslash in front of it, and what follows the mark; brackets mean nothing. -/
def upTo? (mark : Char) : List Char → Option (List Char × List Char)
  | [] => none
  | '\\' :: c :: rest => do
    let (s, rest) ← upTo? mark rest
    if c = mark then some (c :: s, rest)
    else some ((match patternUpTo?.control? c with
      | some b => b :: s
      | none => '\\' :: c :: s), rest)
  | c :: rest => do
    if c = mark then some ([], rest)
    else
      let (s, rest) ← upTo? mark rest
      return (c :: s, rest)

/-- The text of a pattern with a newline for `\n`, in brackets too. -/
def withNewlines : List Char → List Char
  | '\\' :: 'n' :: rest => '\n' :: withNewlines rest
  | '\\' :: c :: rest => '\\' :: c :: withNewlines rest
  | c :: rest => c :: withNewlines rest
  | [] => []

/-- The pattern that a text writes, with the number of its groups; no text stands for the last pattern. -/
def wanted (extended ignoring : Bool) (text rest : List Char) : Except Flaw (Wanted × Nat) :=
  if text.isEmpty then .ok (none, 9)
  else
    match Pattern.ofText (.edit extended) (String.ofList (withNewlines text)) with
    | .ok (p, groups) => .ok (some (if ignoring then p.ignoringCase else p), groups)
    | .error cause => flaw cause.message rest

/-- A number in front of a text. -/
def number (s : List Char) : Option Nat × List Char :=
  let (n, count, rest) := leadingDigits digit? 10 s.length s
  (if count = 0 then none else some n, rest)

/-- A pattern of an address, behind the mark that opens it. -/
def readSearch (extended : Bool) (mark : Char) : Scan Point := fun s => do
  let some (text, rest) := patternUpTo? mark .outside s | flaw "unterminated address regex" []
  let ignoring := rest.head? = some 'I'
  let rest := if ignoring then rest.drop 1 else rest
  let (p, _) ← wanted extended ignoring text rest
  return (.matching p, rest)

/-- A point in front of a text, if there is one. -/
def readPoint (extended : Bool) : Scan (Option Point) := fun s =>
  match s with
  | '$' :: rest => .ok (some .final, rest)
  | '/' :: rest => (readSearch extended '/' rest).map fun (p, rest) => (some p, rest)
  | '\\' :: mark :: rest => (readSearch extended mark rest).map fun (p, rest) => (some p, rest)
  | s =>
    match number s with
    | (none, _) => .ok (none, s)
    | (some n, '~' :: rest) =>
      let (distance, rest) := number rest
      .ok (some (.every n (distance.getD 0)), rest)
    | (some n, rest) => .ok (some (.line n), rest)

/-- The end of a span in front of a text. -/
def readLimit (extended : Bool) : Scan Limit := fun s =>
  match s with
  | '+' :: rest => .ok (.more ((number rest).1.getD 0), (number rest).2)
  | '~' :: rest => .ok (.multiple ((number rest).1.getD 0), (number rest).2)
  | s => do
    match ← readPoint extended s with
    | (some p, rest) => return (.point p, rest)
    | (none, rest) => flaw "unexpected \x60,'" (rest.drop 1)

/-- An address in front of a text. -/
def readAddress (extended : Bool) : Scan Address := fun s => do
  match ← readPoint extended s with
  | (none, rest) => return (.every, rest)
  | (some first, rest) =>
    match rest.dropWhile isBlank with
    | ',' :: more =>
      let (last, rest) ← readLimit extended (more.dropWhile isBlank)
      return (.span first last, rest)
    | _ => return (.at first, rest)

/-- The parts of a replacement. -/
def readParts : List Char → List Part
  | [] => []
  | '&' :: rest => .group 0 :: readParts rest
  | '\\' :: c :: rest =>
    if '0' ≤ c ∧ c ≤ '9' then .group (c.toNat - '0'.toNat) :: readParts rest
    else
      let part : Part := match c with
        | 'n' => .plain [newline]
        | 'U' => .casing .upper
        | 'L' => .casing .lower
        | 'E' => .casing .keep
        | 'u' => .casingOnce .upper
        | 'l' => .casingOnce .lower
        | c => .plain (Utf8.encode (String.singleton c))
      part :: readParts rest
  | c :: rest => .plain (Utf8.encode (String.singleton c)) :: readParts rest

/-- The highest number of a group in a replacement. -/
def highestGroup (parts : List Part) : Nat :=
  parts.foldl (fun most part => match part with
    | .group n => max most n
    | _ => most) 0

/-- The flags of a replacement: the number of the match, all that follow, whether it is shown, and whether letters count
without case. -/
def readFlags : Nat → Option Nat → Bool → Bool → Bool → Scan (Option Nat × Bool × Bool × Bool)
  | 0, n, all, shown, ignoring => fun s => .ok ((n, all, shown, ignoring), s)
  | steps + 1, n, all, shown, ignoring => fun s =>
    match s with
    | 'g' :: rest =>
      if all then flaw "multiple \x60g' options to \x60s' command" rest
      else readFlags steps n true shown ignoring rest
    | 'p' :: rest =>
      if shown then flaw "multiple \x60p' options to \x60s' command" rest
      else readFlags steps n all true ignoring rest
    | 'i' :: rest => readFlags steps n all shown true rest
    | 'I' :: rest => readFlags steps n all shown true rest
    | 'm' :: rest => readFlags steps n all shown ignoring rest
    | 'M' :: rest => readFlags steps n all shown ignoring rest
    | c :: rest =>
      if c.isDigit then
        let (k, rest) := number s
        if n.isSome then flaw "multiple number options to \x60s' command" rest
        else if k = some 0 then flaw "number option to \x60s' command may not be zero" rest
        else readFlags steps k all shown ignoring rest
      else if isGap c || c = '}' || c = '#' then .ok ((n, all, shown, ignoring), s)
      else flaw "unknown option to \x60s'" rest
    | [] => .ok ((n, all, shown, ignoring), [])

/-- A replacement behind its letter. -/
def readReplace (extended : Bool) : Scan Action := fun s => do
  let unfinished {α : Type} : Except Flaw α := flaw "unterminated \x60s' command" []
  let mark :: s := s | unfinished
  let some (written, s) := patternUpTo? mark .outside s | unfinished
  let some (replacement, s) := upTo? mark s | unfinished
  let ((n, all, shown, ignoring), rest) ← readFlags (s.length + 1) none false false false s
  let (p, groups) ← wanted extended ignoring written rest
  let parts := readParts replacement
  if groups < highestGroup parts then
    flaw ("invalid reference \\" ++ toString (highestGroup parts) ++ " on \x60s' command's RHS") rest
  else return (.replace p parts (n.getD 1) all shown, rest)

/-- The bytes of one side of a table of characters. -/
def tableSide : List Char → Bytes
  | '\\' :: 'n' :: rest => newline :: tableSide rest
  | '\\' :: c :: rest => Utf8.encode (String.ofList (if c = '\\' then ['\\'] else ['\\', c])) ++ tableSide rest
  | c :: rest => Utf8.encode (String.singleton c) ++ tableSide rest
  | [] => []

/-- A table of characters behind its letter. -/
def readTable : Scan Action := fun s => do
  let unfinished {α : Type} : Except Flaw α := flaw "unterminated \x60y' command" []
  let mark :: s := s | unfinished
  let some (first, s) := upTo? mark s | unfinished
  let some (second, rest) := upTo? mark s | unfinished
  if (tableSide first).length ≠ (tableSide second).length then
    flaw "strings for \x60y' command are different lengths" rest
  else return (.transliterate (tableSide first) (tableSide second), rest)

/-- The lines of a text, up to the first that has no backslash at its end. A backslash in front of another character goes,
unless both stand for a control character. -/
def textLines : List Char → List Char × List Char
  | [] => ([], [])
  | '\n' :: rest => ([], rest)
  | '\\' :: c :: rest =>
    let (s, rest) := textLines rest
    ((if c = 'n' then '\n' else (patternUpTo?.control? c).getD c) :: s, rest)
  | c :: rest =>
    let (s, rest) := textLines rest
    (c :: s, rest)

/-- A text behind the letter of its command. -/
def readText (make : Bytes → Action) : Scan Action := fun s =>
  let finish (s : List Char) : Except Flaw (Action × List Char) :=
    let (text, rest) := textLines s
    .ok (make (Utf8.encode (String.ofList text) ++ [newline]), rest)
  match s.dropWhile isBlank with
  | [] => flaw "expected \\ after \x60a', \x60c' or \x60i'" []
  | '\\' :: rest =>
    match rest.dropWhile isBlank with
    | '\n' :: text => finish text
    | [] => .ok (make [], [])
    | _ => finish rest
  | text => finish text

/-- A label behind the letter of its command. -/
def readLabel (make : String → Action) : Scan Action := fun s =>
  let s := s.dropWhile isBlank
  let isEnd (c : Char) : Bool := c = ';' || c = '\n' || isBlank c
  .ok (make (String.ofList (s.takeWhile fun c => !isEnd c)), s.dropWhile fun c => !isEnd c)

/-- The status behind the letter of a command that ends a script. -/
def readStatus (shown : Bool) : Scan Action := fun s =>
  let (n, rest) := number (s.dropWhile isBlank)
  .ok (.quit (n.getD 0) shown, rest)

/-- The action of a letter that stands alone. -/
def simpleAction? : Char → Option Action
  | 'd' => some .delete
  | 'D' => some .deleteFirst
  | 'p' => some .print
  | 'P' => some .printFirst
  | '=' => some .number
  | 'n' => some .next
  | 'N' => some .join
  | 'h' => some (.hold false)
  | 'H' => some (.hold true)
  | 'g' => some (.take false)
  | 'G' => some (.take true)
  | 'x' => some .exchange
  | 'z' => some .clear
  | '{' => some .opening
  | '}' => some .closing
  | _ => none

/-- An action in front of a text. -/
def readAction (extended : Bool) : Scan Action := fun s =>
  match s with
  | [] => flaw "missing command" []
  | 's' :: rest => readReplace extended rest
  | 'y' :: rest => readTable rest
  | 'a' :: rest => readText .append rest
  | 'i' :: rest => readText .insert rest
  | 'c' :: rest => readText .change rest
  | 'b' :: rest => readLabel .jump rest
  | 't' :: rest => readLabel .jumpIf rest
  | 'T' :: rest => readLabel .jumpUnless rest
  | ':' :: rest => readLabel .label rest
  | 'q' :: rest => readStatus true rest
  | 'Q' :: rest => readStatus false rest
  | c :: rest =>
    match simpleAction? c with
    | some action => .ok (action, rest)
    | none =>
      if c = '\n' || c = ';' then flaw "missing command" rest
      else flaw ("unknown command: \x60" ++ String.singleton c ++ "'") rest

/-- Whether an action ends by itself, so that a command may follow at once. -/
def Action.endsItself : Action → Bool
  | .opening | .append _ | .insert _ | .change _ => true
  | _ => false

/-- The commands of a script. The first argument is above its length, the second counts the blocks that are open. -/
def readCommands (extended : Bool) : Nat → Nat → List Char → Except Flaw (List Command)
  | 0, _, _ => .ok []
  | steps + 1, depth, s => do
    match s.dropWhile isGap with
    | [] => if depth = 0 then .ok [] else flaw "unmatched \x60\x7b'" s
    | '#' :: rest => readCommands extended steps depth (rest.dropWhile (· ≠ '\n'))
    | s =>
      let (address, s) ← readAddress extended s
      let s := s.dropWhile isBlank
      let negated := s.head? = some '!'
      let s := if negated then (s.drop 1).dropWhile isBlank else s
      if negated && s.head? = some '!' then flaw "multiple \x60!'s" (s.drop 1)
      let (action, rest) ← readAction extended s
      let nested ← match action with
        | .opening => pure (depth + 1)
        | .closing => if depth = 0 then flaw "unexpected \x60\x7d'" rest else pure (depth - 1)
        | _ => pure depth
      let command : Command := { address, negated, action }
      let following := rest.dropWhile isBlank
      let mayFollow (c : Char) : Bool := isGap c || c = '}' || c = '#'
      if action.endsItself || following.head?.all mayFollow then
        return command :: (← readCommands extended steps nested following)
      else flaw "extra characters after command" (following.drop 1)

/-- The label that a command goes on at, if it names one. -/
def Action.target? : Action → Option String
  | .jump l | .jumpIf l | .jumpUnless l => if l.isEmpty then none else some l
  | _ => none

/-- Whether an action marks the place of a label. -/
def Action.marks (label : String) : Action → Bool
  | .label name => name = label
  | _ => false

/-- A script, or the complaint about it. -/
def readScript (extended : Bool) (text : String) : Except String (List Command) :=
  let place (n : Nat) : String := "-e expression #1, char " ++ toString n ++ ": "
  match readCommands extended (text.length + 1) 0 text.toList with
  | .error f =>
    .error (place (if f.text = "unmatched \x60\x7b'" then 0 else text.length - f.left) ++ f.text)
  | .ok commands =>
    let labels := commands.filterMap (·.action.target?)
    match labels.find? fun label => !commands.any (·.action.marks label) with
    | some label => .error ("can't find label for jump to \x60" ++ label ++ "'")
    | none => .ok (commands.zipIdx.map fun (c, index) => { c with index })

end SeedCorpus.StandIn.Tool.Sed
