/-
  The stand-in programs as the programs of a system.

  Nothing that the library does or says of itself rests on what a compiler, a shell or any other program does: those are the
  parameter `Programs`.  To run the commands nevertheless where no other programs are at hand, this folder has stand-ins for
  the usual small ones, and for a shell that calls them.  They imitate what can be seen of the originals from outside, as far
  as somebody who tries out the commands is likely to look; no theorem is about them.
-/
import SeedCorpus.StandIn.Shell.Run

namespace SeedCorpus.StandIn

/-- The longest word that can be handed to a program, in bytes. -/
def maxWordBytes : Nat := 131071

/-- The folder in which a program is looked for last. -/
def lastFolder : String := "/bin"

/-- Why a name or path is no program. -/
def whyNoProgram (t : FileTree) (called : String) : FileError :=
  let path := if called.toList.contains '/' then called else lastFolder ++ "/" ++ called
  match t.find path with
  | .ok _ => .denied
  | .error e => e

/-- Why words cannot be handed to a program, if that is so. -/
def whyNotHanded? (words : List String) : Option FileError :=
  if words.any fun word => word.toList.contains (Char.ofNat 0) then some .invalid
  else if words.any fun word => maxWordBytes < word.utf8ByteSize then some .wordTooLong
  else none

/-- Starts one of the tools, or the shell. With a limit of zero seconds no program comes to do anything. -/
def start (t : FileTree) (called : String) (args : List String) (input : Bytes) (seconds : Nat) :
    Except FileError SeedCorpus.Tool.Outcome :=
  match whyNotHanded? (called :: args), Shell.callee t Shell.programFolders called with
  | some cause, _ => .error cause
  | none, .program _ name =>
    if seconds = 0 then .ok { output := [], errors := [], ending := .timedOut, files := t }
    else .ok (Shell.run t called name args input (1000 * seconds))
  | none, _ => .error (whyNoProgram t called)

/-- The system that has the stand-ins as its programs. -/
instance : Programs where
  start := start

end SeedCorpus.StandIn
