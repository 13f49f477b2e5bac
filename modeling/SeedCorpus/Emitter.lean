/-
  Text with a current indentation.

  An `Emitter` collects the lines of a program.  `line` opens a new line at the current depth, two blanks a level;
  `inline` continues the line that is open.  The text carries no final newline: the first line is the one that needs
  no newline before it, which is why `line` looks whether there is any text yet.
-/
namespace SeedCorpus

/-- A text under construction. -/
structure Emitter where
  /-- How many blocks are open around the next line. -/
  depth : Nat := 0
  /-- What was written so far. -/
  text : String := ""
deriving DecidableEq, Repr, Inhabited

namespace Emitter

/-- The blanks in front of a line at a depth. -/
def indentation (depth : Nat) : String := String.ofList (List.replicate (2 * depth) ' ')

/-- Continues the open line. -/
def inline (e : Emitter) (s : String) : Emitter := { e with text := e.text ++ s }

/-- Opens a new line at the current depth and writes `s` on it. -/
def line (e : Emitter) (s : String) : Emitter :=
  { e with text := (if e.text.isEmpty then "" else e.text ++ "\n") ++ indentation e.depth ++ s }

/-- Goes one block deeper. -/
def enter (e : Emitter) : Emitter := { e with depth := e.depth + 1 }

/-- Leaves a block. -/
def exit (e : Emitter) : Emitter := { e with depth := e.depth - 1 }

end Emitter

end SeedCorpus
