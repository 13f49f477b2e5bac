/-
  The settings of a filter, read from a document.

  Every field of a filter and of its gates may be missing and then has its default.  A command replaces the default command
  as a whole: its program must be there, and arguments that are not given are none.
-/
import SeedCorpus.Filter.Gates
import SeedCorpus.Folder.Tree
import SeedCorpus.Tool.Command
import SeedCorpus.Toml.Parser
import SeedCorpus.Toml.Record

namespace SeedCorpus

/-- What a filter can be tuned with. -/
structure FilterConfig where
  /-- The thresholds for texts. -/
  gates : Gates := {}
  /-- The extension of the files that are kept, without the dot. -/
  extension : String := "c"
  /-- The compiler: one that checks the syntax and does not warn. -/
  compiler : Command := { program := "gcc", args := ["-c", "-w", "-O0", "-fsyntax-only"] }
  /-- The program that brings a text into its normal form. -/
  canonicalizer : Command := { program := "c_formatter_42" }
deriving DecidableEq, Repr, Inhabited

/-- Why there are no settings. -/
inductive SettingsError where
  /-- The file cannot be read. -/
  | unreadable (path : String)
  /-- The document holds no settings. -/
  | malformed
deriving DecidableEq, Repr

/-- The text that reports the cause. -/
def SettingsError.message : SettingsError → String
  | .unreadable path => "failed to read config file " ++ path
  | .malformed => "failed to parse filter configuration"

/-! ## Reading a document -/

/-- The gates that a value holds. -/
def Gates.ofValue? (v : Toml.Value) : Option Gates := do
  let r ← v.record?
  let defaults : Gates := {}
  let minLength ← r.read 0 "min_length" Toml.Value.count? (some defaults.minLength)
  let nestingDepth ← r.read 1 "nesting_depth" Toml.Value.count? (some defaults.nestingDepth)
  let breakDepth ← r.read 2 "break_depth" Toml.Value.integer? (some defaults.breakDepth)
  let continueDepth ← r.read 3 "continue_depth" Toml.Value.integer? (some defaults.continueDepth)
  return { minLength, nestingDepth, breakDepth, continueDepth }

/-- The command that a value holds. -/
def Command.ofValue? (v : Toml.Value) : Option Command := do
  let r ← v.record?
  let program ← r.read 0 "program" Toml.Value.text? none
  let args ← r.read 1 "args" Toml.Value.texts? (some [])
  let timeoutSecs ← r.read 2 "timeout_secs" Toml.Value.count? (some 30)
  return { program, args, timeoutSecs }

/-- The settings that a table holds. -/
def FilterConfig.ofTable? (table : Toml.Table) : Option FilterConfig := do
  let r : Toml.Record := .named table
  let defaults : FilterConfig := {}
  let gates ← r.read 0 "gates" Gates.ofValue? (some defaults.gates)
  let extension ← r.read 1 "extension" Toml.Value.text? (some defaults.extension)
  let compiler ← r.read 2 "compiler" Command.ofValue? (some defaults.compiler)
  let canonicalizer ← r.read 3 "canonicalizer" Command.ofValue? (some defaults.canonicalizer)
  return { gates, extension, compiler, canonicalizer }

/-- The settings that a document holds. -/
def FilterConfig.ofText (text : String) : Except SettingsError FilterConfig :=
  match (Toml.parse text).bind FilterConfig.ofTable? with
  | some config => .ok config
  | none => .error .malformed

/-! ## Reading a file -/

/-- The text of the file that a path leads to. -/
def readSettings (t : FileTree) (path : String) : Except SettingsError String :=
  match (t.read path).toOption.bind String.fromUTF8? with
  | some text => .ok text
  | none => .error (.unreadable path)

/-- The settings in the file that a path leads to. -/
def FilterConfig.load (t : FileTree) (path : String) : Except SettingsError FilterConfig := do
  FilterConfig.ofText (← readSettings t path)

end SeedCorpus
