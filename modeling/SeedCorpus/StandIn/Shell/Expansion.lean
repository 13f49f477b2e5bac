/-
  The stand-in shell: from words to fields.

  Expanding a word gives fragments; loose ones come from values without quotes and are split at separators, solid ones are
  not.  `fields` puts the fragments of a word together.
-/
import SeedCorpus.StandIn.Shell.Arithmetic
import SeedCorpus.StandIn.Shell.Glob
import SeedCorpus.StandIn.Shell.State

namespace SeedCorpus.StandIn.Shell

/-- What a piece of a word becomes. -/
inductive Fragment where
  /-- Characters that stay together. In quotes they make a field even if there are none. -/
  | solid (s : String) (quoted : Bool)
  /-- Characters that are split at separators. -/
  | loose (s : String)
  /-- The boundary between two arguments. -/
  | gap
deriving DecidableEq, Repr, Inhabited

/-- The characters of a fragment. -/
def Fragment.text : Fragment → String
  | .solid s _ => s
  | .loose s => s
  | .gap => " "

/-- A fragment of a word that stands in braces: without quotes its characters are split. -/
def Fragment.within (quoted : Bool) : Fragment → Fragment
  | .solid s false => if quoted then .solid s true else .loose s
  | fragment => fragment

/-- Fields under construction: those that are complete, the last one first, and the one that is not, its last character
first. -/
structure Fields where
  /-- The complete fields, the last one first. -/
  done : List Marked := []
  /-- The field under way, its last character first. -/
  current : Option Marked := none
  /-- Whether blanks have just ended a field. -/
  afterBlank : Bool := false
deriving DecidableEq, Repr, Inhabited

/-- The fields with the one under way complete. -/
def Fields.close (f : Fields) : Fields :=
  match f.current with
  | some field => { done := field.reverse :: f.done }
  | none => f

/-- Whether a character is a blank. -/
def isBlank (c : Char) : Bool := c = ' ' || c = '\t' || c = '\n'

/-- The fields with one more character of a loose fragment. Blanks in a row are one separator, and one with another separator
among them. -/
def Fields.addChar (separators : List Char) (f : Fields) (c : Char) : Fields :=
  if !separators.contains c then { f with current := some ((c, false) :: f.current.getD []), afterBlank := false }
  else
    match f.current with
    | some _ => { f.close with afterBlank := isBlank c }
    | none =>
      if isBlank c then f
      else if f.afterBlank then { f with afterBlank := false }
      else { f with done := [] :: f.done }

/-- The fields with one more fragment. -/
def Fields.add (separators : List Char) (f : Fields) : Fragment → Fields
  | .solid s quoted =>
    if s.isEmpty && !quoted then f
    else { f with current := some ((s.toList.map (·, quoted)).reverse ++ f.current.getD []), afterBlank := false }
  | .loose s => s.toList.foldl (Fields.addChar separators) f
  | .gap => f.close

/-- The fields that the fragments of a word make. -/
def fields (separators : List Char) (fragments : List Fragment) : List Marked :=
  (fragments.foldl (Fields.add separators) {}).close.done.reverse

/-- The text that the fragments of a word make where words are not split. -/
def joined (fragments : List Fragment) : String := String.join (fragments.map Fragment.text)

/-- The fragments of a value. -/
def fragmentsOf (value : String) (quoted : Bool) : List Fragment :=
  [if quoted then .solid value true else .loose value]

/-- The fragments of a parameter. The arguments stay apart, except for a star in quotes. -/
def expandValue (s : State) (name : String) (quoted : Bool) : List Fragment :=
  if name = "*" && quoted then
    [.solid ((String.ofList (s.separators.take 1)).intercalate s.args) true]
  else if name = "@" || name = "*" then (s.args.map fun arg => fragmentsOf arg quoted).intersperse [.gap] |>.flatten
  else fragmentsOf (s.value name) quoted

/-- What a command prints, without the newlines at its end. -/
def outputText (bytes : Bytes) : String :=
  Utf8.decode (((bytes.reverse.dropWhile (· = Tool.newline)).filter (· ≠ 0)).reverse)

/-- The characters of a pattern, each with whether it stands for itself. -/
def patternOf (fragments : List Fragment) : Marked :=
  fragments.flatMap fun
    | .solid s quoted => s.toList.map (·, quoted)
    | .loose s => s.toList.map (·, false)
    | .gap => [(' ', true)]

end SeedCorpus.StandIn.Shell
