/-
  Why a program could not be made.

  `SynthesisError` lists the causes; the wording of each is in `SynthesisError.message`.
-/
import SeedCorpus.Folder.Basic

namespace SeedCorpus

/-- What a name was looked up as. -/
inductive SymbolKind where
  /-- A type key. -/
  | type
  /-- An operation key. -/
  | operation
  /-- A variable. -/
  | variable
  /-- A function. -/
  | function
deriving DecidableEq, Repr

/-- The word for a kind of name in messages. -/
def SymbolKind.word : SymbolKind → String
  | .type => "type"
  | .operation => "operation"
  | .variable => "variable"
  | .function => "function"

/-- Why no program came about. -/
inductive SynthesisError where
  /-- A name that nothing was registered or declared under. -/
  | unknownSymbol (kind : SymbolKind) (name : String)
  /-- A call with the wrong number of arguments. -/
  | arityMismatch (callee : String) (expected found : Nat)
  /-- A program without functions was asked for. -/
  | noFunctions
  /-- A function that is part of the program has no body. -/
  | missingBody (name : String)
  /-- A random number was wanted from a range that holds none. -/
  | emptyRange
  /-- The settings cannot be read. -/
  | malformedSettings
  /-- A file could not be written. -/
  | storage (cause : FileError)
deriving DecidableEq, Repr

/-- The text that reports the cause. -/
def SynthesisError.message : SynthesisError → String
  | .unknownSymbol kind name => "unknown " ++ kind.word ++ " `" ++ name ++ "`"
  | .arityMismatch callee expected found =>
    "call to `" ++ callee ++ "` expects " ++ toString expected ++ " argument(s), got " ++ toString found
  | .noFunctions => "a program needs at least one function"
  | .missingBody name => "function `" ++ name ++ "` was never given a body"
  | .emptyRange => "cannot sample empty range"
  | .malformedSettings => "failed to parse synthesis config"
  | .storage cause => "I/O error: " ++ cause.message

end SeedCorpus
