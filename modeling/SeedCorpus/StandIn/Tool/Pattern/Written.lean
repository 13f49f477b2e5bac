/-
  How patterns are written, for the stand-ins that read them.

  A pattern is written in one of two ways that differ in what needs a backslash (`Spelling.extended`).  Those who read
  patterns also differ in how strict they are: where there is nothing to repeat, in what is no number of repetitions, in
  parentheses that close nothing and in ranges that go downwards.  The text is first cut into signs, and the signs are then
  put together to a pattern.
-/
import SeedCorpus.StandIn.Tool.Pattern

namespace SeedCorpus.StandIn.Tool

/-- Why a text writes no pattern. -/
inductive PatternError where
  /-- Nothing follows a bracket. -/
  | emptyBracket
  /-- A bracket is not closed. -/
  | openBracket
  /-- There is no class of the name. -/
  | unknownClass
  /-- Several characters are taken for one. -/
  | unknownElement
  /-- A range goes downwards or begins or ends with something other than a character. -/
  | badRange
  /-- The name of a class stands in brackets that are needed twice. -/
  | bareClass
  /-- A group is not closed. -/
  | openGroup
  /-- A group is closed that was not opened. -/
  | strayClosing
  /-- Something other than numbers stands in braces. -/
  | badTimes
  /-- A brace is not closed. -/
  | openBrace
  /-- A part is to stand too often. -/
  | tooOften
  /-- Nothing stands in front of a sign for repetition. -/
  | nothingRepeated
  /-- The text ends in a backslash. -/
  | trailingBackslash
  /-- There is no group of the number. -/
  | unknownGroup
deriving DecidableEq, Repr

/-- The text that reports the cause. -/
def PatternError.message : PatternError → String
  | .emptyBracket => "Invalid regular expression"
  | .openBracket => "Unmatched [, [^, [:, [., or [="
  | .unknownClass => "Invalid character class name"
  | .unknownElement => "Invalid collation character"
  | .badRange => "Invalid range end"
  | .bareClass => "character class syntax is [[:space:]], not [:space:]"
  | .openGroup => "Unmatched ( or \\("
  | .strayClosing => "Unmatched ) or \\)"
  | .openBrace => "Unmatched \\\x7b"
  | .badTimes => "Invalid content of \\\x7b\\\x7d"
  | .tooOften => "Regular expression too big"
  | .nothingRepeated => "Invalid preceding regular expression"
  | .trailingBackslash => "Trailing backslash"
  | .unknownGroup => "Invalid back reference"

/-- How a pattern is written. -/
structure Spelling where
  /-- Whether signs need no backslash. -/
  extended : Bool
  /-- Whether it is an error to repeat nothing, or something that is repeated already. -/
  strict : Bool
  /-- Whether a range that goes downwards is an empty set and no error. -/
  emptyRanges : Bool
  /-- Whether braces and parentheses that make no sense stand for themselves, and lone classes are refused. -/
  lenient : Bool
deriving DecidableEq, Repr, Inhabited

/-- How patterns are written for searches. -/
def Spelling.search (extended : Bool) : Spelling := { extended, strict := false, emptyRanges := false, lenient := true }

/-- How patterns are written for edits. -/
def Spelling.edit (extended : Bool) : Spelling := { extended, strict := true, emptyRanges := false, lenient := false }

/-- How patterns are written in calculations. -/
def Spelling.calculation : Spelling := { extended := false, strict := false, emptyRanges := true, lenient := false }

/-- A sign of a written pattern. -/
inductive Sign where
  /-- A pattern without parts. -/
  | atom (p : Pattern)
  /-- The beginning of a group. -/
  | opening
  /-- The end of a group. -/
  | closing
  /-- Between alternatives. -/
  | bar
  /-- How often the last part stands. -/
  | times (least : Nat) (most : Option Nat)
deriving Repr, Inhabited

/-! ## Brackets -/

/-- An element of a set in brackets. -/
inductive Element where
  /-- A byte. -/
  | byte (b : UInt8)
  /-- The bytes of a class. -/
  | class (bytes : Bytes)
deriving DecidableEq, Repr, Inhabited

/-- The byte of a character that stands for one. -/
def byteOf (c : Char) : UInt8 := UInt8.ofNat c.toNat

/-- The name in front of a text up to a mark and a bracket, and what follows these. -/
def nameUpTo (mark : Char) : List Char → Option (List Char × List Char)
  | [] => none
  | c :: rest => do
    if c = mark ∧ rest.head? = some ']' then some ([], rest.drop 1)
    else
      let (name, rest) ← nameUpTo mark rest
      return (c :: name, rest)

/-- An element in front of a text, and the rest. A dash stands for itself only in front, behind another one, or at the
end. -/
def readElement (dashes : Bool) (s : List Char) : Except PatternError (Element × List Char) :=
  match s with
  | [] => .error .openBracket
  | '[' :: mark :: rest =>
    if mark = ':' ∨ mark = '=' ∨ mark = '.' then
      match nameUpTo mark rest with
      | none => .error .openBracket
      | some (name, rest) =>
        if mark = ':' then
          match byteClass? (String.ofList name) with
          | some bytes => .ok (.class bytes, rest)
          | none => .error .unknownClass
        else
          match name with
          | [c] => .ok (if mark = '=' then .class [byteOf c] else .byte (byteOf c), rest)
          | _ => .error .unknownElement
    else .ok (.byte 91, mark :: rest)
  | '-' :: rest => if dashes || rest.head? = some ']' then .ok (.byte 45, rest) else .error .badRange
  | c :: rest => .ok (.byte (byteOf c), rest)

/-- The bytes between two elements. -/
def rangeOf (spelling : Spelling) (first last : Element) : Except PatternError Bytes :=
  match first, last with
  | .byte a, .byte b => if b < a && !spelling.emptyRanges then .error .badRange else .ok (byteRange a b)
  | _, _ => .error .badRange

/-- The bytes in brackets, given what follows the bracket and a caret, and the rest. The first argument is above the length
of the text. -/
def readBracket (spelling : Spelling) : Nat → Bool → List Char → Except PatternError (Bytes × List Char)
  | 0, _, _ => .error .openBracket
  | steps + 1, isFirst, s => do
    if s.head? = some ']' ∧ !isFirst then return ([], s.drop 1)
    let (first, rest) ← readElement isFirst s
    let isRange : Bool := match first, rest with
      | .byte _, '-' :: c :: _ => c ≠ ']'
      | _, _ => false
    if isRange then
      let (last, rest) ← readElement true (rest.drop 1)
      let bytes ← rangeOf spelling first last
      let (more, rest) ← readBracket spelling steps false rest
      return (bytes ++ more, rest)
    else
      let bytes := match first with
        | .byte b => [b]
        | .class bytes => bytes
      let (more, rest) ← readBracket spelling steps false rest
      return (bytes ++ more, rest)

/-- Whether brackets hold the name of a class and nothing else. -/
def isBareClass (s : List Char) : Bool :=
  match s with
  | ':' :: rest =>
    let name := rest.takeWhile (· ≠ ']')
    1 < name.length && name.getLast? = some ':'
  | _ => false

/-- The set in brackets, given what follows the opening one, and the rest. -/
def readSetSign (spelling : Spelling) (s : List Char) : Except PatternError (Sign × List Char) := do
  let negated := s.head? = some '^'
  let inside := if negated then s.drop 1 else s
  if inside.isEmpty then throw .emptyBracket
  if spelling.lenient && isBareClass s then throw .bareClass
  let (set, rest) ← readBracket spelling (inside.length + 1) true inside
  return (.atom (.oneOf (if negated then complement set else set)), rest)

/-! ## Signs -/

/-- The greatest number of repetitions. -/
def maxTimes : Nat := 32767

/-- How often something stands, written in braces, given what follows the opening one, and the rest. -/
def readTimes (extended : Bool) (s : List Char) : Except PatternError (Sign × List Char) :=
  let closing := if extended then "\x7d" else "\\\x7d"
  let (least, count, rest) := leadingDigits digit? 10 s.length s
  let (most, bounded, rest) : Nat × Bool × List Char := match rest with
    | ',' :: more =>
      let (n, count, after) := leadingDigits digit? 10 more.length more
      (n, decide (0 < count), after)
    | rest => (least, true, rest)
  let hasComma := (s.drop count).head? = some ','
  if closing.toList.isPrefixOf rest then
    if (count = 0 && !hasComma) || (bounded && most < least) then .error .badTimes
    else if maxTimes < (if bounded then most else least) then .error .tooOften
    else .ok (.times least (if bounded then some most else none), rest.drop closing.length)
  else if (s.dropWhile fun c => c ≠ '\x7d').isEmpty then .error .openBrace
  else .error .badTimes

/-- The sign of a character that stands for itself. -/
def literalSign (c : Char) : Sign := .atom (.oneOf [byteOf c])

/-- The sign that a character with a backslash stands for, if it is not the character itself. -/
def escapedSign? (extended : Bool) (c : Char) : Option Sign :=
  match c with
  | 'n' => some (.atom (.oneOf [newline]))
  | 'b' => some (.atom (.edge .either))
  | 'B' => some (.atom (.edge .neither))
  | '<' => some (.atom (.edge .opening))
  | '>' => some (.atom (.edge .closing))
  | '\x60' => some (.atom .lineStart)
  | '\'' => some (.atom .lineEnd)
  | 'w' => some (.atom (.oneOf wordBytes))
  | 'W' => some (.atom (.oneOf (complement wordBytes)))
  | 's' => some (.atom (.oneOf (byteRange 9 13 ++ [32])))
  | 'S' => some (.atom (.oneOf (complement (byteRange 9 13 ++ [32]))))
  | '(' => if extended then none else some .opening
  | ')' => if extended then none else some .closing
  | '|' => if extended then none else some .bar
  | '+' => if extended then none else some (.times 1 none)
  | '?' => if extended then none else some (.times 0 (some 1))
  | c => if '1' ≤ c ∧ c ≤ '9' then some (.atom (.again (c.toNat - '0'.toNat))) else none

/-- The sign that a character without a backslash stands for, if it is not the character itself. `isFirst` tells whether
nothing stands in front of it. -/
def plainSign? (extended isFirst : Bool) (c : Char) (rest : List Char) : Option Sign :=
  let isLast := rest.isEmpty || (!extended && ("\\)".toList.isPrefixOf rest || "\\|".toList.isPrefixOf rest))
  match c with
  | '.' => some (.atom (.oneOf (complement [])))
  | '*' => some (.times 0 none)
  | '^' => if extended || isFirst then some (.atom .lineStart) else none
  | '$' => if extended || isLast then some (.atom .lineEnd) else none
  | '(' => if extended then some .opening else none
  | ')' => if extended then some .closing else none
  | '|' => if extended then some .bar else none
  | '+' => if extended then some (.times 1 none) else none
  | '?' => if extended then some (.times 0 (some 1)) else none
  | _ => none

/-- What stands in front of a sign. -/
inductive Front where
  /-- Nothing that can be repeated. -/
  | nothing
  /-- A part. -/
  | part
  /-- A part that is repeated. -/
  | repeated
deriving DecidableEq, Repr

/-- What stands in front of the next sign. -/
def Sign.front : Sign → Front
  | .opening | .bar => .nothing
  | .atom .lineStart | .atom .lineEnd | .atom (.edge _) => .nothing
  | .times .. => .repeated
  | _ => .part

/-- What becomes of a sign for repetition that is written with some characters: it stays, it goes, or the characters stand
for themselves. -/
def placed (spelling : Spelling) (front : Front) (needsPart : Bool) (written : Char) (sign : Sign) :
    Except PatternError (List Sign) :=
  match front with
  | .part => .ok [sign]
  | .repeated => if spelling.strict && !spelling.extended && needsPart then .error .nothingRepeated else .ok [sign]
  | .nothing =>
    if spelling.extended then if spelling.strict then .error .nothingRepeated else .ok []
    else .ok [literalSign written]

/-- The signs of a written pattern. The first argument is above its length. -/
def readSigns (spelling : Spelling) : Nat → Front → List Char → Except PatternError (List Sign)
  | 0, _, _ => .ok []
  | _ + 1, _, [] => .ok []
  | _ + 1, _, ['\\'] => .error .trailingBackslash
  | steps + 1, front, s => do
    let extended := spelling.extended
    let goOn (signs : List Sign) (rest : List Char) : Except PatternError (List Sign) := do
      let front := (signs.getLast?.map Sign.front).getD front
      return signs ++ (← readSigns spelling steps front rest)
    let brace (rest : List Char) : Except PatternError (List Sign) := do
      if !extended && front = .nothing then
        if spelling.strict then throw .nothingRepeated else goOn [literalSign '\x7b'] rest
      else if !extended && spelling.strict && front = .repeated then throw .nothingRepeated
      else
        match readTimes extended rest with
        | .ok (sign, rest) => goOn (← placed spelling front false '\x7b' sign) rest
        | .error cause =>
          if extended && front = .nothing && spelling.strict then throw .nothingRepeated
          let isOrdinary := cause = .openBrace || (cause = .badTimes && !hasNumbers rest)
          if extended && spelling.lenient && isOrdinary then goOn [literalSign '\x7b'] rest else throw cause
    match s with
    | '\\' :: c :: rest =>
      if c = '\x7b' ∧ !extended then brace rest
      else
        match escapedSign? extended c with
        | some (.times least most) => goOn (← placed spelling front false c (.times least most)) rest
        | some sign => goOn [sign] rest
        | none => goOn [literalSign c] rest
    | '[' :: rest =>
      let (sign, rest) ← readSetSign spelling rest
      goOn [sign] rest
    | c :: rest =>
      if c = '\x7b' ∧ extended then brace rest
      else
        match plainSign? extended (front = .nothing) c rest with
        | some (.times least most) => goOn (← placed spelling front (c = '*') c (.times least most)) rest
        | some sign => goOn [sign] rest
        | none => goOn [literalSign c] rest
    | [] => return []
where
  /-- Whether braces hold numbers or nothing. -/
  hasNumbers (s : List Char) : Bool := (s.takeWhile (· ≠ '\x7d')).all fun c => c.isDigit || c = ','

/-! ## Patterns from signs -/

/-- The last part of a list of parts, repeated. -/
def repeatLast (least : Nat) (most : Option Nat) : List Pattern → List Pattern
  | p :: parts => .repeated p least most :: parts
  | [] => []

/-- Whether a part refers to a group of which there is none yet. -/
def refersPast (groups : Nat) : Pattern → Bool
  | .again n => groups < n
  | _ => false

/-- The alternatives up to the end of a group, given the parts of the current one, with the number of groups opened so far,
and the signs behind. Outside of groups a sign that closes one is an error or stands for itself. -/
def readAlternatives (spelling : Spelling) :
    Nat → Bool → Nat → List Pattern → List Sign → Except PatternError (Pattern × Nat × List Sign)
  | 0, _, groups, parts, _ => .ok (joinParts parts, groups, [])
  | _ + 1, _, groups, parts, [] => .ok (joinParts parts, groups, [])
  | steps + 1, inside, groups, parts, sign :: rest => do
    match sign with
    | .atom p =>
      if refersPast groups p then .error .unknownGroup
      else readAlternatives spelling steps inside groups (p :: parts) rest
    | .times least most => readAlternatives spelling steps inside groups (repeatLast least most parts) rest
    | .closing =>
      if inside then .ok (joinParts parts, groups, .closing :: rest)
      else if spelling.lenient && spelling.extended then
        readAlternatives spelling steps inside groups (.oneOf [41] :: parts) rest
      else .error .strayClosing
    | .bar =>
      let (others, groups, rest) ← readAlternatives spelling steps inside groups [] rest
      return (.alt (joinParts parts) others, groups, rest)
    | .opening =>
      match ← readAlternatives spelling steps true (groups + 1) [] rest with
      | (body, inner, .closing :: rest) =>
        readAlternatives spelling steps inside inner (.group (groups + 1) body :: parts) rest
      | _ => .error .openGroup

/-- The pattern that a text writes, with the number of its groups. -/
def Pattern.ofText (spelling : Spelling) (text : String) : Except PatternError (Pattern × Nat) := do
  let s := (Utf8.encode text).map fun b => Char.ofNat b.toNat
  let signs ← readSigns spelling (s.length + 1) .nothing s
  let (p, groups, _) ← readAlternatives spelling (2 * signs.length + 1) false 0 [] signs
  return (p, groups)

end SeedCorpus.StandIn.Tool
