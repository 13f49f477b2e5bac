/-
  The words of a command line.

  Two dashes in front of a name make a long option, one dash in front of a letter a short one.  A value may follow in the
  same word: behind `=`, or for a short option directly.  Two dashes alone divide options from operands.  A dash alone is a
  word like any other.
-/
import SeedCorpus.Instances

namespace SeedCorpus.CommandLine

/-- What a word is while options are still read. -/
inductive Word where
  /-- A value or an operand. -/
  | plain (text : String)
  /-- What ends the options. -/
  | divider
  /-- An option by its name, perhaps with a value. -/
  | long (name : String) (value : Option String)
  /-- An option by its letter, perhaps with a value. -/
  | short (letter : Char) (value : Option String)
deriving DecidableEq, Repr, Inhabited

/-- What follows the first `=`. -/
def afterEquals (cs : List Char) : Option String :=
  match cs.dropWhile (· ≠ '=') with
  | _ :: value => some (String.ofList value)
  | [] => none

/-- The value that follows a letter in the same word. -/
def attached (cs : List Char) : Option String :=
  match cs with
  | [] => none
  | '=' :: value => some (String.ofList value)
  | value => some (String.ofList value)

/-- Reads a word. -/
def Word.ofText (text : String) : Word :=
  match text.toList with
  | ['-', '-'] => .divider
  | '-' :: '-' :: rest => .long (String.ofList (rest.takeWhile (· ≠ '='))) (afterEquals rest)
  | '-' :: letter :: rest => .short letter (attached rest)
  | _ => .plain text

/-- Whether the word is a value for an option in front of it. -/
def Word.isPlain : Word → Bool
  | .plain _ => true
  | _ => false

/-- The number below 2^64 that a text is: digits, perhaps with a plus in front. -/
def number? (text : String) : Option Nat :=
  let digits := match text.toList with
    | '+' :: digits => digits
    | digits => digits
  let value := digits.foldl (fun n c => 10 * n + (c.toNat - '0'.toNat)) 0
  if digits.isEmpty || !digits.all Char.isDigit || 2 ^ 64 ≤ value then none else some value

/-- The path that a text is; there is no empty path. -/
def path? (text : String) : Option String := if text.isEmpty then none else some text

end SeedCorpus.CommandLine
