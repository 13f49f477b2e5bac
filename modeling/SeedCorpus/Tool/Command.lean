/-
  Commands as they stand in settings.
-/
namespace SeedCorpus

/-- A program with arguments and a limit of time. -/
structure Command where
  /-- The name of the program, or a path to it. -/
  program : String
  /-- The arguments. -/
  args : List String := []
  /-- How many seconds the program may take. -/
  timeoutSecs : Nat := 30
deriving DecidableEq, Repr, Inhabited

/-- The program and its arguments in a row. -/
def Command.words (c : Command) : List String := c.program :: c.args

end SeedCorpus
