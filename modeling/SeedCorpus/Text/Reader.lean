/-
  Readers.

  A reader takes the front of a text and returns what it read with the rest, or nothing.
-/
namespace SeedCorpus

/-- Takes something from the front of a text. -/
abbrev Reader (α : Type) := List Char → Option (α × List Char)

/-- What follows a given character. -/
def afterChar (c : Char) : List Char → Option (List Char)
  | [] => none
  | d :: rest => if c = d then some rest else none

/-- What follows a given word at the front of a text. -/
def afterWord (word : String) (s : List Char) : Option (List Char) :=
  let w := word.toList
  if w.isPrefixOf s then some (s.drop w.length) else none

end SeedCorpus
