/-
  The commands by name.
-/
import SeedCorpus.CommandLine.Generation
import SeedCorpus.CommandLine.Sifting

namespace SeedCorpus.CommandLine

/-- Reads a command line and does what the settings in it say. -/
def Grammar.execute {σ : Type} (g : Grammar σ) (program : String) (defaults : σ) (words : List String) (t : FileTree)
    (run : σ → Ending × FileTree) : Ending × FileTree :=
  match g.read defaults words with
  | .ok settings => run settings
  | .error stop => (stop.ending g program, t)

/-- Executes the command of a name, if there is one. -/
def execute? [Programs] (command : String) (words : List String) (chance : Chance) (t : FileTree) :
    Option (Ending × FileTree) :=
  if command = Generation.command then
    some (Generation.grammar.execute command {} words t fun g => g.run chance t)
  else if command = Sifting.command then
    some (Sifting.grammar.execute command {} words t fun s => s.run t)
  else none

end SeedCorpus.CommandLine
