/-
  Interned names.

  A `Symbol` stands for the spelling of a type, the sign of an operator or the name of a variable or function: it is
  the position of that text in a `SymbolTable`.  Positions are given out as 0, 1, 2, ... and are never taken back, so
  a symbol keeps its text for as long as the table grows.

  A table keeps the texts in order of their positions (`texts`) and, for the way back, the newest position of each
  text (`newest`).  `insert` always gives out a fresh position and so hides an older one of the same text; `intern`
  asks `lookup` first, and a table filled by `intern` alone never holds a text twice.
-/
namespace SeedCorpus

/-- A name, by its position in a symbol table. -/
structure Symbol where
  /-- The position. -/
  id : Nat
deriving DecidableEq, Repr, Inhabited

/-- The names of one program. -/
structure SymbolTable where
  /-- The texts, in order of their positions. -/
  texts : Array String := #[]
  /-- The symbol last given to each text; an entry hides those after it. -/
  newest : List (String × Symbol) := []
deriving DecidableEq, Repr, Inhabited

namespace SymbolTable

/-- How many symbols the table has given out. -/
def size (t : SymbolTable) : Nat := t.texts.size

/-- Whether the table has given out no symbol yet. -/
def isEmpty (t : SymbolTable) : Bool := t.texts.isEmpty

/-- The newest symbol of a text. -/
def lookup (t : SymbolTable) (text : String) : Option Symbol := t.newest.lookup text

/-- Gives the text a fresh symbol, also when it has one already. -/
def insert (t : SymbolTable) (text : String) : Symbol × SymbolTable :=
  let s : Symbol := ⟨t.size⟩
  (s, { texts := t.texts.push text, newest := (text, s) :: t.newest })

/-- The symbol of a text, a fresh one only if the text has none. -/
def intern (t : SymbolTable) (text : String) : Symbol × SymbolTable :=
  match t.lookup text with
  | some s => (s, t)
  | none => t.insert text

/-- The text of a symbol that the table gave out. -/
def text? (t : SymbolTable) (s : Symbol) : Option String := t.texts[s.id]?

/-- The text of a symbol; empty for a symbol of another table. -/
def text (t : SymbolTable) (s : Symbol) : String := (t.text? s).getD ""

end SymbolTable

end SeedCorpus
