/-
  What a command leaves to chance.

  Chance is asked for nothing but tags and seeds, so a command is a function of its answers.  `Chance.ofSeed` gives answers
  that spread one random number.
-/
import SeedCorpus.Random.Source

namespace SeedCorpus.CommandLine

open SeedCorpus.Random (Source)

/-- The answers of chance. -/
structure Chance where
  /-- The tag behind the name of a program of a batch. -/
  tag : Nat → String
  /-- The seed of a program if none was asked for. -/
  seed : Nat → Nat

/-- The characters of tags: digits and letters without those that look alike. -/
def tagLetters : List Char := "123456789ABCDEFGHJKLMNPQRSTUVWXYZabcdefghijkmnopqrstuvwxyz".toList

/-- The number of characters of a tag. -/
def tagLength : Nat := 22

/-- Draws characters of a tag. -/
def drawTag (g : Source) : Nat → List Char
  | 0 => []
  | count + 1 =>
    let (i, g) := g.below tagLetters.length
    tagLetters.getD i '1' :: drawTag g count

/-- The answers that a number is spread into. -/
def Chance.ofSeed (seed : Nat) : Chance where
  tag := fun k => String.ofList (drawTag (Source.ofSeed (seed + k)) tagLength)
  seed := fun k => (seed + k) % 2 ^ 64

end SeedCorpus.CommandLine
