/-
  Paths as texts.

  A path holds names with slashes between them.  One that starts with a slash leads from the outermost folder, any other from
  the folder that one is in.  `names` takes a path apart and `join` puts one behind another; a path that is just a name is
  its only name.
-/
namespace SeedCorpus.Path

/-- The longest name, in bytes. -/
def maxNameBytes : Nat := 255

/-- The longest path, in bytes. -/
def maxBytes : Nat := 4095

/-- Whether a path leads from the outermost folder. -/
def isAbsolute (path : String) : Bool := path.toList.head? = some '/'

/-- A path followed by another; one that starts with a slash stands for itself. -/
def join (path rest : String) : String :=
  if isAbsolute rest then rest
  else if path.isEmpty || path.toList.getLast? = some '/' then path ++ rest
  else path ++ "/" ++ rest

/-- A character put in front of names: a slash begins a new one. -/
def consChar (c : Char) (below : List (List Char)) : List (List Char) :=
  match below with
  | name :: more => if c = '/' then [] :: name :: more else (c :: name) :: more
  | [] => [[c]]

/-- What stands between the slashes of a text. -/
def split (path : List Char) : List (List Char) := path.foldr consChar [[]]

/-- The names in a path; one is empty where slashes follow each other or stand at an end. -/
def names (path : String) : List String := (split path.toList).map String.ofList

/-- The last name of a path that is not a dot. -/
def lastName (path : String) : String := (((names path).filter fun name => name ≠ "" && name ≠ ".").getLast?).getD ""

end SeedCorpus.Path
