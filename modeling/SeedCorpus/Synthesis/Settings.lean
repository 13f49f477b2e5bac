/-
  The settings of a synthesis, read from a document.

  Every field may be missing.  A strategy is written as its word.
-/
import SeedCorpus.Synthesis.Program
import SeedCorpus.Toml.Parser
import SeedCorpus.Toml.Record

namespace SeedCorpus

/-- The strategy of a word. -/
def StrategyKind.ofWord? (word : String) : Option StrategyKind := [tree, flat].find? (·.word = word)

/-- The settings that a table holds. -/
def SynthesisConfig.ofTable? (table : Toml.Table) : Option SynthesisConfig := do
  let r : Toml.Record := .named table
  let defaults : SynthesisConfig := {}
  let strategy ← r.read 0 "strategy" (fun v => v.word?.bind StrategyKind.ofWord?) (some defaults.strategy)
  let functions ← r.read 1 "functions" Toml.Value.count? (some defaults.functions)
  let statements ← r.read 2 "statements" (fun v => v.count?.map some) (some defaults.statements)
  let seed ← r.read 3 "seed" (fun v => v.count?.map some) (some defaults.seed)
  return { strategy, functions, statements, seed }

/-- The settings that a document holds. -/
def SynthesisConfig.ofText (text : String) : Except SynthesisError SynthesisConfig :=
  match (Toml.parse text).bind SynthesisConfig.ofTable? with
  | some config => .ok config
  | none => .error .malformedSettings

end SeedCorpus
