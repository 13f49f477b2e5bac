/-
  The command that sifts a folder of programs in place.

  Settings come from a file if one is named.  Before the first program is looked at, the compiler must tell its version.
  Every program that is kept is reported on the output, and the counts are the summary.
-/
import SeedCorpus.CommandLine.Ending
import SeedCorpus.Filter.Commands
import SeedCorpus.Filter.Settings

namespace SeedCorpus

/-- The filter of settings. -/
def FilterConfig.filter [Programs] (c : FilterConfig) : SeedFilter :=
  { gates := c.gates, extension := c.extension, compiler := c.compiler.compiler, canonicalizer := c.canonicalizer.canonicalizer }

/-- The counts of a pass in words. -/
def Summary.text (s : Summary) : String :=
  toString s.accepted ++ " accepted, " ++ toString s.rejected ++ " rejected, " ++ toString s.failed ++ " failed"

namespace CommandLine

/-- What the command that sifts a folder is told. -/
structure Sifting where
  /-- The folder. -/
  seeds : String := ""
  /-- The file with the settings. -/
  config : Option String := none
  /-- How much is to be told on the way. -/
  logLevel : String := "warn"
deriving DecidableEq, Repr, Inhabited

namespace Sifting

/-- The name of the command. -/
def command : String := "cseed-filter"

/-- What the command line may hold. -/
def grammar : Grammar Sifting where
  operands := [
    { name := "SEEDS", purpose := "Directory with generated seeds (C programs) to filter"
      store := fun text s => (path? text).map fun path => { s with seeds := path } }]
  choices := [
    { name := "config", letter := some 'c', purpose := "Path to .toml configuration for the filter"
      store := fun text s => (path? text).map fun path => { s with config := some path } },
    { name := "log-level", letter := some 'l', purpose := "Log level (trace, debug, info, warn, error)"
      store := fun text s => some { s with logLevel := text } }]

/-- The settings in the file that is named, or the defaults. -/
def settings (s : Sifting) (t : FileTree) : Except SettingsError FilterConfig :=
  match s.config with
  | none => .ok {}
  | some path => FilterConfig.load t path

/-- Does what it was told. -/
def run [Programs] (s : Sifting) (t : FileTree) : Ending × FileTree :=
  match s.settings t with
  | .error cause => (.failed cause.message, t)
  | .ok c =>
    if !(t.findFolder s.seeds).isOk then (.failed ("Seed directory " ++ s.seeds ++ " doesn't exist!"), t)
    else
      match c.compiler.probe t with
      | (.error cause, t) => (.failed cause.message, t)
      | (.ok (), t) =>
        let step := c.filter.processFolder t s.seeds
        match step.result with
        | .ok report => (.done report.progress (some report.summary.text), step.files)
        | .error cause => (.failed cause.message, step.files)

end Sifting

end CommandLine

end SeedCorpus
