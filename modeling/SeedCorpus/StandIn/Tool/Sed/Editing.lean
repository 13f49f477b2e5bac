/-
  The stand-in for `sed`: editing lines by a script.

  The script is carried out once for each line, as long as it lasts.  A line on its way through the script may take in
  further lines, and a text can be put aside for later lines.  At the end of the script the line is printed, unless it was
  deleted or nothing is to be printed by itself, and then the texts that were to follow it.
-/
import SeedCorpus.StandIn.Tool.Sed.Script
import SeedCorpus.StandIn.Tool.Streams

namespace SeedCorpus.StandIn.Tool.Sed

/-! ## Replacing -/

/-- A byte with its case changed. -/
def Casing.byte (c : Casing) (b : UInt8) : UInt8 :=
  match c with
  | .keep => b
  | .upper => if 97 ≤ b && b ≤ 122 then b - 32 else b
  | .lower => if 65 ≤ b && b ≤ 90 then b + 32 else b

/-- Bytes with their case changed, the first of them as `once` says if it says anything. -/
def recase (all : Casing) (once : Option Casing) (bytes : Bytes) : Bytes :=
  match once, bytes with
  | some c, b :: rest => c.byte b :: rest.map all.byte
  | _, bytes => bytes.map all.byte

/-- The bytes of a replacement for a match. -/
def fill (found : Found) : Casing → Option Casing → List Part → Bytes
  | _, _, [] => []
  | _, once, .casing c :: parts => fill found c once parts
  | all, _, .casingOnce c :: parts => fill found all (some c) parts
  | all, once, .plain bytes :: parts => recase all once bytes ++ fill found all (if bytes.isEmpty then once else none) parts
  | all, once, .group n :: parts =>
    let bytes := if n = 0 then found.matched else (found.groups.lookup n).getD []
    recase all once bytes ++ fill found all (if bytes.isEmpty then once else none) parts

/-- A line with matches replaced, and whether there were any, from the match of a number on. An empty match does not count
right behind another one (`behindMatch`). The first argument is above the length of the line, the third is the byte in front
of what is left of it. -/
def replaceFrom (p : Pattern) (parts : List Part) (all : Bool) :
    Nat → Nat → Option UInt8 → Bool → Bytes → Bytes × Bool
  | 0, _, _, _, line => (line, false)
  | steps + 1, number, behind, behindMatch, line =>
    match p.search behind line with
    | none => (line, false)
    | some found =>
      if behindMatch && found.before.isEmpty && found.matched.isEmpty then
        match line with
        | [] => ([], false)
        | b :: rest =>
          let (tail, more) := replaceFrom p parts all steps number (some b) false rest
          (b :: tail, more)
      else
        let counts : Bool := number ≤ 1
        let front := found.before ++ (if counts then fill found .keep none parts else found.matched)
        if counts && !all then (front ++ found.after, true)
        else
          match found.matched, found.after with
          | _, [] => (front, counts)
          | [], b :: rest =>
            let (tail, more) := replaceFrom p parts all steps (number - 1) (some b) false rest
            (front ++ b :: tail, counts || more)
          | matched, after =>
            let (tail, more) := replaceFrom p parts all steps (number - 1) matched.getLast? true after
            (front ++ tail, counts || more)

/-! ## The state of an edit -/

/-- What is printed. A newline that the last line lacked is owed to the next one. -/
structure Printed where
  /-- The pieces, the last one first. -/
  pieces : List Bytes := []
  /-- Whether a newline is owed. -/
  owes : Bool := false
deriving DecidableEq, Repr, Inhabited

/-- The bytes that are printed. -/
def Printed.bytes (out : Printed) : Bytes := out.pieces.reverse.flatten

/-- Prints bytes, with a newline behind them or owed. -/
def Printed.add (out : Printed) (bytes : Bytes) (withNewline : Bool) : Printed :=
  let front := if out.owes then [newline] :: out.pieces else out.pieces
  { pieces := (if withNewline then bytes ++ [newline] else bytes) :: front, owes := !withNewline }

/-- Prints a text of whole lines. -/
def Printed.addText (out : Printed) (text : Bytes) : Printed :=
  { pieces := text :: if out.owes then [newline] :: out.pieces else out.pieces }

/-- A line on its way through a script, and what is around it. -/
structure State where
  /-- The line. -/
  line : Bytes := []
  /-- Whether the line has a newline at its end. -/
  hasNewline : Bool := true
  /-- The number of the line. -/
  number : Nat := 0
  /-- The lines to come. -/
  toCome : List Bytes
  /-- What was put aside. -/
  held : Bytes := []
  /-- Whether what was put aside has a newline at its end. -/
  heldNewline : Bool := true
  /-- What is printed so far. -/
  printed : Printed := {}
  /-- What is to be printed after the line. -/
  following : List Bytes := []
  /-- The spans that are open: the commands, and the numbers of their last lines if these are known. -/
  spans : List (Nat × Option Nat) := []
  /-- Whether something was replaced. -/
  replaced : Bool := false
  /-- The pattern that was used last. -/
  lastPattern : Pattern := .empty

/-- The state with the line printed. -/
def State.show (s : State) : State := { s with printed := s.printed.add s.line s.hasNewline }

/-- The state with the texts printed that were to follow. -/
def State.flush (s : State) : State :=
  { s with printed := s.following.foldl Printed.addText s.printed, following := [] }

/-- The state with the next line at hand, if there is one. -/
def State.advance (s : State) (join : Bool) : Option State :=
  match s.toCome with
  | [] => none
  | next :: toCome =>
    let line := if join then s.line ++ newline :: bare next else bare next
    some { s with line, hasNewline := next.getLast? = some newline, number := s.number + 1, toCome }

/-- The pattern that is searched for, which is then the last one. -/
def State.resolve (s : State) (p : Wanted) : Pattern × State :=
  let p := p.getD s.lastPattern
  (p, { s with lastPattern := p })

/-! ## Addresses -/

/-- Whether a point names the line. -/
def Point.names (p : Point) (s : State) : Bool × State :=
  match p with
  | .line n => (n = s.number, s)
  | .every first distance =>
    (if distance = 0 then s.number = first else first ≤ s.number && (s.number - first) % distance = 0, s)
  | .final => (s.toCome.isEmpty, s)
  | .matching p =>
    let (p, s) := s.resolve p
    (p.occursIn s.line, s)

/-- The number of the last line of a span that begins at the line, if it is known by then. -/
def Limit.line? (l : Limit) (s : State) : Option Nat :=
  match l with
  | .point (.line n) => some n
  | .point .final => if s.toCome.isEmpty then some s.number else none
  | .point _ => none
  | .more n => some (s.number + n)
  | .multiple n => some (if n = 0 then s.number else (s.number + n - 1) / n * n)

/-- Whether an address takes in the line; the spans of commands are opened and closed on the way. -/
def Command.takesIn (c : Command) (s : State) : Bool × State :=
  match c.address with
  | .every => (true, s)
  | .at p => p.names s
  | .span first last =>
    let others := s.spans.filter (·.1 ≠ c.index)
    let fromZero : Bool := match first with
      | .line 0 => s.number == 1
      | _ => false
    match s.spans.lookup c.index with
    | some (some n) =>
      (s.number ≤ n, { s with spans := if n ≤ s.number then others else s.spans })
    | some none => ended last s others
    | none =>
      if fromZero then ended last { s with spans := (c.index, none) :: others } others
      else
        let (begins, s) := first.names s
        if !begins then (false, s)
        else
          match last.line? s with
          | some n => (true, if n ≤ s.number then s else { s with spans := (c.index, some n) :: others })
          | none => (true, { s with spans := (c.index, none) :: others })
where
  /-- A line in an open span, which it may close. -/
  ended (last : Limit) (s : State) (others : List (Nat × Option Nat)) : Bool × State :=
    match last with
    | .point p =>
      let (closes, s) := p.names s
      (true, if closes then { s with spans := others } else s)
    | _ => (true, s)

/-! ## Carrying out a script -/

/-- How a script goes on. -/
inductive Next where
  /-- With commands. -/
  | commands (l : List Command)
  /-- With another line; the line at hand is printed or not. -/
  | line (shown : Bool)
  /-- With the line at hand from the beginning. -/
  | again
  /-- Not at all; the line at hand and what was to follow it are printed or not. -/
  | stop (status : Nat) (shown : Bool)

/-- The commands behind a label, or none for the end of the script. -/
def afterLabel (script : List Command) (label : String) : List Command :=
  if label.isEmpty then [] else (script.dropWhile fun c => !c.action.marks label).drop 1

/-- The commands behind the block that has been begun, at a depth. -/
def afterBlock : Nat → List Command → List Command
  | _, [] => []
  | depth, c :: rest =>
    match c.action with
    | .opening => afterBlock (depth + 1) rest
    | .closing => if depth = 0 then rest else afterBlock (depth - 1) rest
    | _ => afterBlock depth rest

/-- The bytes up to the first newline, and those behind it if there is one. -/
def firstLine (bytes : Bytes) : Bytes × Option Bytes :=
  (bytes.takeWhile (· ≠ newline),
    if bytes.contains newline then some ((bytes.dropWhile (· ≠ newline)).drop 1) else none)

/-- Carries out a command that is meant for the line. -/
def Command.apply (script : List Command) (quiet : Bool) (s : State) (c : Command) (rest : List Command) :
    State × Next :=
  let goOn (s : State) : State × Next := (s, .commands rest)
  let goTo (s : State) (label : String) : State × Next := (s, .commands (afterLabel script label))
  match c.action with
  | .replace p parts n all shown =>
    let (p, s) := s.resolve p
    let (line, changed) := replaceFrom p parts all (s.line.length + 2) n none false s.line
    let s := { s with line, replaced := s.replaced || changed }
    goOn (if changed && shown then s.show else s)
  | .transliterate first second => goOn { s with line := s.line.map (exchangeByte first second) }
  | .delete => (s, .line false)
  | .deleteFirst =>
    match firstLine s.line with
    | (_, some line) => ({ s with line }, .again)
    | _ => (s, .line false)
  | .print => goOn s.show
  | .printFirst => goOn { s with printed := s.printed.add (firstLine s.line).1 (s.hasNewline || s.line.contains newline) }
  | .number => goOn { s with printed := s.printed.addText (Utf8.encode (toString s.number ++ "\n")) }
  | .next =>
    if s.toCome.isEmpty then (s, .line true)
    else goOn (((if quiet then s else s.show).flush.advance false).getD s)
  | .join =>
    match s.advance true with
    | some next => goOn next.flush
    | none => (s, .line true)
  | .hold behind =>
    goOn { s with held := if behind then s.held ++ newline :: s.line else s.line, heldNewline := s.hasNewline }
  | .take behind =>
    goOn { s with line := if behind then s.line ++ newline :: s.held else s.held, hasNewline := s.heldNewline }
  | .exchange =>
    goOn { s with line := s.held, hasNewline := s.heldNewline, held := s.line, heldNewline := s.hasNewline }
  | .clear => goOn { s with line := [] }
  | .append text => goOn { s with following := s.following ++ [text] }
  | .insert text => goOn { s with printed := s.printed.addText text }
  | .change text =>
    let isOver := c.negated || (s.spans.lookup c.index).isNone
    (if isOver then { s with printed := s.printed.addText text } else s, .line false)
  | .jump label => goTo s label
  | .jumpIf label => if s.replaced then goTo { s with replaced := false } label else goOn s
  | .jumpUnless label => if s.replaced then goOn { s with replaced := false } else goTo s label
  | .quit status shown => (s, .stop status shown)
  | .label _ | .opening | .closing => goOn s

/-- How an edit ends. -/
structure Result where
  /-- What is printed. -/
  output : Bytes
  /-- The status. -/
  status : Nat := 0
  /-- Whether the script came to an end. -/
  ended : Bool := true
deriving DecidableEq, Repr, Inhabited

/-- Carries out the commands that are left for the line, and the script for the lines to come. The first argument limits the
number of commands. -/
def run (script : List Command) (quiet : Bool) : Nat → State → Next → Result
  | 0, s, _ => { output := s.printed.bytes, ended := false }
  | steps + 1, s, .commands (c :: rest) =>
    let (taken, s) := c.takesIn s
    if taken != c.negated then
      let (s, next) := Command.apply script quiet s c rest
      run script quiet steps s next
    else
      run script quiet steps s (.commands (if c.action matches .opening then afterBlock 0 rest else rest))
  | steps + 1, s, .commands [] => run script quiet steps s (.line true)
  | steps + 1, s, .line shown =>
    let s := (if shown && !quiet then s.show else s).flush
    match s.advance false with
    | some s => run script quiet steps { s with replaced := false } (.commands script)
    | none => { output := s.printed.bytes }
  | steps + 1, s, .again => run script quiet steps s.flush (.commands script)
  | _ + 1, s, .stop status shown =>
    let s := if shown && !quiet then s.show else s
    let last := if shown then s.flush.printed.addText [] else s.printed
    { output := last.bytes, status }

/-- Edits lines by a script. -/
def edit (script : List Command) (quiet : Bool) (input : List Bytes) : Result :=
  run script quiet 1000000 { toCome := input } (.line false)

end SeedCorpus.StandIn.Tool.Sed
