/-
  What a text must look like before a compiler sees it.

  The gates look at raw text and know no C: braces and keywords count in comments, strings and longer words too.  A text
  passes when it is long enough, when enough opening braces are followed by as many closing ones, and when every `break`
  and `continue` stands deep enough in braces and behind some loop keyword.  The gates are tried in this order, and the
  first that refuses gives the reason.

  Offsets are counted in bytes of UTF-8, lengths in characters.
-/
namespace SeedCorpus

/-- Why a file was thrown out of the corpus. -/
inductive Rejection where
  /-- The text has too few characters. -/
  | tooShort (length : Nat)
  /-- The braces are not nested deeply enough. -/
  | shallowNesting
  /-- A `break` stands outside of a loop. -/
  | strayBreak (offset : Nat)
  /-- A `continue` stands outside of a loop. -/
  | strayContinue (offset : Nat)
  /-- The compiler refused the file. -/
  | compileFailed
  /-- The compiler took too long. -/
  | compileTimedOut
  /-- The bytes are not UTF-8. -/
  | notUtf8
deriving DecidableEq, Repr

/-- The text that reports the reason. -/
def Rejection.message : Rejection → String
  | .tooShort length => "too short (" ++ toString length ++ " chars)"
  | .shallowNesting => "not enough nested braces"
  | .strayBreak offset => "`break` outside a loop at " ++ toString offset
  | .strayContinue offset => "`continue` outside a loop at " ++ toString offset
  | .compileFailed => "does not compile"
  | .compileTimedOut => "compiler timed out"
  | .notUtf8 => "not UTF-8 text"

/-- The thresholds of the gates. -/
structure Gates where
  /-- A text of this many characters is still too short. -/
  minLength : Nat := 200
  /-- How many opening braces must be followed by as many closing ones. -/
  nestingDepth : Nat := 3
  /-- The depth in braces from which on `break` may stand. -/
  breakDepth : Int := 5
  /-- The depth in braces from which on `continue` may stand. -/
  continueDepth : Int := 4
deriving DecidableEq, Repr, Inhabited

/-! ## Length and nesting -/

/-- Refuses a text of at most `minLength` characters. -/
def checkLength (text : String) (minLength : Nat) : Except Rejection Unit :=
  if text.length ≤ minLength then .error (.tooShort text.length) else .ok ()

/-- Whether `opens` opening braces occur, and after them `closes` closing ones. -/
def hasNesting (opens closes : Nat) : List Char → Bool
  | [] => opens = 0 && closes = 0
  | c :: rest =>
    match opens, closes with
    | opens + 1, closes => hasNesting (if c = '{' then opens else opens + 1) closes rest
    | 0, closes + 1 => hasNesting 0 (if c = '}' then closes else closes + 1) rest
    | 0, 0 => true

/-- Refuses a text in which `depth` opening braces are not followed by as many closing ones. -/
def checkNesting (text : String) (depth : Nat) : Except Rejection Unit :=
  if hasNesting depth depth text.toList then .ok () else .error .shallowNesting

/-! ## Loop scoping -/

/-- What is known about the text in front of a character. -/
structure LoopScan where
  /-- Its length in bytes. -/
  offset : Nat := 0
  /-- Its opening braces less its closing ones. -/
  balance : Int := 0
  /-- Its characters, the last one first. -/
  before : List Char := []
  /-- Whether it holds a loop keyword. -/
  loopSeen : Bool := false
deriving DecidableEq, Repr, Inhabited

/-- Whether a text, given from its end, ends in a loop keyword. -/
def endsInLoopKeyword (before : List Char) : Bool :=
  "rof".toList.isPrefixOf before || "elihw".toList.isPrefixOf before

/-- What is known after one more character. -/
def LoopScan.step (s : LoopScan) (c : Char) : LoopScan :=
  { offset := s.offset + c.utf8Size
    balance := if c = '{' then s.balance + 1 else if c = '}' then s.balance - 1 else s.balance
    before := c :: s.before
    loopSeen := s.loopSeen || endsInLoopKeyword (c :: s.before) }

/-- Whether a jump may stand here, given the depth that it needs. -/
def LoopScan.allows (s : LoopScan) (depth : Int) : Bool := depth ≤ s.balance && s.loopSeen

/-- Refuses the first `break` or `continue` of the rest of the text that may not stand where it stands. -/
def scanJumps (breakDepth continueDepth : Int) (s : LoopScan) : List Char → Except Rejection Unit
  | [] => .ok ()
  | c :: rest =>
    if "break".toList.isPrefixOf (c :: rest) && !s.allows breakDepth then .error (.strayBreak s.offset)
    else if "continue".toList.isPrefixOf (c :: rest) && !s.allows continueDepth then .error (.strayContinue s.offset)
    else scanJumps breakDepth continueDepth (s.step c) rest

/-- Refuses a text in which a `break` or `continue` stands too shallow or in front of every loop keyword. -/
def checkLoopScoping (text : String) (breakDepth continueDepth : Int) : Except Rejection Unit :=
  scanJumps breakDepth continueDepth {} text.toList

/-- Tries the gates in order. -/
def Gates.check (g : Gates) (text : String) : Except Rejection Unit := do
  checkLength text g.minLength
  checkNesting text g.nestingDepth
  checkLoopScoping text g.breakDepth g.continueDepth

end SeedCorpus
