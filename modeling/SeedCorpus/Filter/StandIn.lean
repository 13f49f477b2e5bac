/-
  Stand-in tools, which need no external program.

  A compiler can be replaced by rules on what a file contains, and a canonicalizer by a function on texts.  With these a
  corpus can be sifted without anything installed.  They change no file of their own accord, so that all that holds of such
  tools holds of them.
-/
import SeedCorpus.Filter.Seeds

namespace SeedCorpus.StandIn

/-- What a rule says about a file. -/
inductive Decision where
  /-- The compiler answers. -/
  | verdict (v : Verdict)
  /-- The compiler breaks down. -/
  | crash
deriving DecidableEq, Repr

/-- Whether a list of bytes occurs in another. -/
def occursIn (part : List UInt8) : List UInt8 → Bool
  | [] => part.isEmpty
  | b :: rest => part.isPrefixOf (b :: rest) || occursIn part rest

/-- What rules say about bytes: the first one whose text occurs in them decides, or else they all leave it to a last word. -/
def decision (table : List (String × Decision)) (otherwise : Decision) (bytes : List UInt8) : Decision :=
  ((table.find? fun rule => occursIn rule.1.toUTF8.toList bytes).map (·.2)).getD otherwise

/-- The answer of a compiler that decides so. -/
def Decision.answer : Decision → Except ToolError Verdict
  | .verdict v => .ok v
  | .crash => .error (.crashed "compiler")

/-- A compiler that follows rules on what a file contains. -/
def rules (table : List (String × Decision)) (otherwise : Decision) : Compiler :=
  .ofJudgement fun _ content => (decision table otherwise content.toList).answer

/-- The text as it is. -/
def identity : Canonicalizer := .ofText fun text => .ok text

/-- The text in capital letters, as far as the letters are ASCII. -/
def upper : Canonicalizer := .ofText fun text => .ok (text.map Char.toUpper)

/-- No text. -/
def empty : Canonicalizer := .ofText fun _ => .ok ""

/-- A line without blanks at its beginning and at its end. -/
def trimLine (line : List Char) : List Char := ((line.dropWhile (· = ' ')).reverse.dropWhile (· = ' ')).reverse

/-- A text without blanks at the beginnings and ends of its lines. -/
def trimText (text : String) : String :=
  String.ofList (['\n'].intercalate ((text.toList.splitOn '\n').map trimLine))

/-- The text without blanks at the beginnings and ends of its lines. -/
def trimLines : Canonicalizer := .ofText fun text => .ok (trimText text)

/-- No answer. -/
def broken : Canonicalizer := .ofText fun _ => .error (.crashed "canonicalizer")

end SeedCorpus.StandIn
