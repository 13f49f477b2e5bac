/-
  The commands as a program.

  The first word of the command line is the command.  The folder that the program is started in is read as a value, the
  command works on that, and what it changed is written back.  Only files in and below that folder are known, and the tools
  of a filter are those of the library.
-/
import SeedCorpus.CommandLine.Commands
import SeedCorpus.Folder.Changes
import SeedCorpus.Tool.Surroundings

namespace SeedCorpus

/-- The folder at a path, down to a depth, as far as it can be read. -/
def loadFolder (path : String) : Nat → IO Folder
  | 0 => return []
  | depth + 1 => do
    let mut d : Folder := []
    for entry in ← (← IO.FS.realPath path).readDir do
      let below := entry.path.toString
      if ← entry.path.isDir then
        d := (entry.fileName, .folder (← loadFolder below depth)) :: d
      else
        match ← (IO.FS.readBinFile below).toBaseIO with
        | .ok content => d := (entry.fileName, .file content) :: d
        | .error _ => pure ()
    return d

/-- Takes a step towards a folder. -/
def Folder.Change.apply : Folder.Change → IO Unit
  | .remove path => IO.FS.removeFile path
  | .removeFolder path => IO.FS.removeDir path
  | .makeFolder path => IO.FS.createDir path
  | .write path content => IO.FS.writeBinFile path content

end SeedCorpus

open SeedCorpus

/-- Executes the command that the first word names. -/
def main (args : List String) : IO UInt32 := do
  let here := (Path.names (← IO.currentDir).toString).filter (· ≠ "")
  let before ← loadFolder "." 32
  let chance := CommandLine.Chance.ofSeed (← IO.rand 0 (2 ^ 64 - 1))
  match CommandLine.execute? (args.headD "") (args.drop 1) chance (.around here before) with
  | none =>
    IO.eprintln "error: the first argument must be cseed-gen or cseed-filter"
    return 2
  | some (ending, after) =>
    for change in Folder.changes before after.inside do
      change.apply
    IO.print ending.output
    IO.eprint ending.errors
    return UInt32.ofNat ending.status
