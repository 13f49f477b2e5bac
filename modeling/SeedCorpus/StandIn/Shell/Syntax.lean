/-
  The stand-in shell: commands.

  A word is a list of pieces, some of which stand in quotes: these are neither split into fields nor dropped when they are
  empty.  A command is one inductive type, so that running it is one function.
-/
namespace SeedCorpus.StandIn.Shell

/-- What takes the place of a parameter that is not set. -/
inductive Fallback where
  /-- A word in its place. -/
  | use
  /-- A word in its place, which the parameter is set to. -/
  | assign
  /-- A word if the parameter is set, and nothing if it is not. -/
  | whenSet
  /-- Nothing: the shell complains with a word and ends. -/
  | refuse
deriving DecidableEq, Repr, Inhabited

/-- How a redirection changes a stream. -/
inductive Redirect where
  /-- Reads from a file. -/
  | input
  /-- Writes to a file from its beginning. -/
  | output
  /-- Writes to a file from its beginning, even where files are spared. -/
  | clobber
  /-- Writes behind what a file holds. -/
  | append
  /-- Reads from a file or writes over it. -/
  | both
  /-- Goes where another stream goes. -/
  | same
  /-- Reads the text that stands in the script itself. -/
  | here
deriving DecidableEq, Repr, Inhabited

mutual

/-- A piece of a word. -/
inductive Piece where
  /-- Characters that stand for themselves. -/
  | text (s : String) (quoted : Bool)
  /-- The value of a parameter. -/
  | value (name : String) (quoted : Bool)
  /-- The length of the value of a parameter. -/
  | length (name : String) (quoted : Bool)
  /-- The value of a parameter, with a rule for when it is not set or, if `orEmpty`, empty. -/
  | fallback (name : String) (rule : Fallback) (orEmpty : Bool) (word : List Piece) (quoted : Bool)
  /-- The value of a parameter without what fits a pattern at its end or, if not `atEnd`, at its front: as much as
  possible if `longest`, or as little. -/
  | trimmed (name : String) (atEnd longest : Bool) (pattern : List Piece) (quoted : Bool)
  /-- The value of an arithmetic expression. -/
  | arithmetic (expression : List Piece) (quoted : Bool)
  /-- The output of a command. -/
  | outputOf (command : Command) (quoted : Bool)

/-- A command. -/
inductive Command where
  /-- Variables, words and redirections, with the number of lines that begin behind it in the script. -/
  | simple (below : Nat) (assignments : List (String × List Piece)) (words : List (List Piece))
      (redirections : List (Nat × Redirect × List Piece))
  /-- Commands in a row, the output of each being the input of the next. -/
  | pipe (stages : List Command)
  /-- The contrary of what a command says. -/
  | not (body : Command)
  /-- The second command if the first one succeeds. -/
  | and (first second : Command)
  /-- The second command if the first one fails. -/
  | or (first second : Command)
  /-- Commands one after the other. -/
  | sequence (commands : List Command)
  /-- One of two commands, by how a third one ends. -/
  | branch (condition body alternative : Command)
  /-- A command again and again, as long as a condition succeeds, or fails if `contrary`. -/
  | loop (contrary : Bool) (condition body : Command)
  /-- A command for each of several words. -/
  | each (name : String) (words : List (List Piece)) (body : Command)
  /-- The command behind the first pattern that a word fits. -/
  | choose (word : List Piece) (cases : List (List (List Piece) × Command))
  /-- A command whose variables end with it. -/
  | scope (body : Command)
  /-- A command with redirections. -/
  | redirected (body : Command) (redirections : List (Nat × Redirect × List Piece))
  /-- A command that runs beside the shell. -/
  | beside (body : Command)
  /-- A name for a command. -/
  | define (name : String) (body : Command)

end

/-- A word. -/
abbrev Word := List Piece

/-- A redirection: the number of the stream, how it changes, and the target. -/
abbrev Redirection := Nat × Redirect × Word

/-- Nothing to do. -/
def Command.skip : Command := .sequence []

end SeedCorpus.StandIn.Shell
