/-
  The command that writes programs.

  Settings come from a file if one is named, and the command line overrides them; the number of functions always comes from
  the command line.  A single program gets the name that was asked for.  The programs of a batch get the name with a tag
  behind it, and the seeds count up from the seed of the first.  A batch stops at the first program that cannot be made or
  written; what was written before stays.
-/
import SeedCorpus.CommandLine.Chance
import SeedCorpus.CommandLine.Ending
import SeedCorpus.Filter.Settings
import SeedCorpus.Synthesis.Settings

namespace SeedCorpus.CommandLine

open SeedCorpus.Random (Source)

/-- What the command that writes programs is told. -/
structure Generation where
  /-- The name of the program. -/
  name : String := ""
  /-- The number of functions. -/
  size : Nat := 0
  /-- The file with the settings. -/
  config : Option String := none
  /-- The strategy, in place of that of the settings. -/
  strategy : Option StrategyKind := none
  /-- The seed, in place of that of the settings. -/
  seed : Option Nat := none
  /-- The number of drawn statements, in place of that of the settings. -/
  statements : Option Nat := none
  /-- The number of programs. -/
  count : Nat := 1
  /-- The folder to write into. -/
  outDir : String := "."
  /-- How much is to be told on the way. -/
  logLevel : String := "info"
deriving DecidableEq, Repr, Inhabited

namespace Generation

/-- The name of the command. -/
def command : String := "cseed-gen"

/-- What the command line may hold. -/
def grammar : Grammar Generation where
  operands := [
    { name := "NAME", purpose := "Output name; the program is written to \x60<NAME>.c\x60"
      store := fun text g => some { g with name := text } },
    { name := "SIZE", purpose := "Number of functions, and the default statement budget per function"
      store := fun text g => (number? text).map fun size => { g with size } }]
  choices := [
    { name := "config", letter := some 'c', purpose := "Path to .toml configuration for the synthesizer"
      store := fun text g => (path? text).map fun path => { g with config := some path } },
    { name := "strategy", purpose := "Generation strategy"
      store := fun text g => (StrategyKind.ofWord? text).map fun kind => { g with strategy := some kind } },
    { name := "seed", purpose := "Seed for reproducible output"
      store := fun text g => (number? text).map fun seed => { g with seed := some seed } },
    { name := "statements", purpose := "Statements per function body"
      store := fun text g => (number? text).map fun budget => { g with statements := some budget } },
    { name := "count", letter := some 'n'
      purpose := "Number of programs to write; more than one adds a unique suffix"
      store := fun text g => (number? text).map fun count => { g with count } },
    { name := "out-dir", letter := some 'o', purpose := "Directory to write into"
      store := fun text g => (path? text).map fun path => { g with outDir := path } },
    { name := "log-level", letter := some 'l', purpose := "Log level (trace, debug, info, warn, error)"
      store := fun text g => some { g with logLevel := text } }]

/-- The settings in the file that is named, or the defaults. -/
def settings (g : Generation) (t : FileTree) : Except String SynthesisConfig :=
  match g.config with
  | none => .ok {}
  | some path => do
    let text ← (readSettings t path).mapError SettingsError.message
    (SynthesisConfig.ofText text).mapError SynthesisError.message

/-- Settings with what the command line says in their place. -/
def override (g : Generation) (c : SynthesisConfig) : SynthesisConfig :=
  { functions := g.size, strategy := g.strategy.getD c.strategy, seed := g.seed.or c.seed
    statements := g.statements.or c.statements }

/-- The name of a program: of a batch if there is not just one. -/
def programName (g : Generation) (chance : Chance) (k : Nat) : String :=
  if g.count = 1 then g.name else g.name ++ "_" ++ chance.tag k

/-- The seed of a program, which wraps around at 2^64. -/
def programSeed (c : SynthesisConfig) (chance : Chance) (k : Nat) : Nat :=
  match c.seed with
  | some seed => (seed + k) % 2 ^ 64
  | none => chance.seed k

/-- Makes and writes one program. -/
def writeProgram (g : Generation) (chance : Chance) (c : SynthesisConfig) (t : FileTree) (k : Nat) :
    Except SynthesisError String × FileTree :=
  match generate c (Source.ofSeed (programSeed c chance k)) with
  | .ok program => program.writeTo t g.outDir (programName g chance k)
  | .error e => (.error e, t)

/-- Makes and writes the programs from a number on. -/
def writePrograms (g : Generation) (chance : Chance) (c : SynthesisConfig) (t : FileTree) (first : Nat) :
    Nat → Except SynthesisError Unit × FileTree
  | 0 => (.ok (), t)
  | count + 1 =>
    match writeProgram g chance c t first with
    | (.ok _, t) => writePrograms g chance c t (first + 1) count
    | (.error e, t) => (.error e, t)

/-- Does what it was told. -/
def run (g : Generation) (chance : Chance) (t : FileTree) : Ending × FileTree :=
  match g.settings t with
  | .error message => (.failed message, t)
  | .ok c =>
    if !(t.findFolder g.outDir).isOk then
      (.failed ("Output directory " ++ g.outDir ++ " doesn't exist!"), t)
    else
      match writePrograms g chance (g.override c) t 0 g.count with
      | (.ok (), t) => (.done "" none, t)
      | (.error e, t) => (.failed e.message, t)

end Generation

end SeedCorpus.CommandLine
