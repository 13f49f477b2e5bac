/-
  The C that a seed program is made of.

  The trees are only as rich as generated programs need: expressions over `int` and one array, the statements that
  the generator draws from, and functions whose body may still be missing.  Variables and functions are referred to by
  id (`VarId`, `FuncId`), types and operators by the symbol of their spelling, so a tree has a meaning only beside the
  `Registry` that gave these out.
-/
import SeedCorpus.Symbol

namespace SeedCorpus

/-- A variable of a registry, by order of declaration. -/
structure VarId where
  /-- How many variables were declared before it. -/
  index : Nat
deriving DecidableEq, Repr, Inhabited

/-- A function of a registry, by order of declaration. -/
structure FuncId where
  /-- How many functions were declared before it. -/
  index : Nat
deriving DecidableEq, Repr, Inhabited

/-- A C type, known by how declarations spell it: two keys with one spelling name one type. -/
structure ValueType where
  /-- The spelling, such as `int` or `int*`. -/
  spelling : Symbol
deriving DecidableEq, Repr, Inhabited

/-- A binary operator. -/
structure Operation where
  /-- The sign, such as `+` or `>`. -/
  sign : Symbol
deriving DecidableEq, Repr, Inhabited

/-- A declared variable. -/
structure Variable where
  /-- Its name. -/
  name : Symbol
  /-- Its type. -/
  type : ValueType
deriving DecidableEq, Repr, Inhabited

/-- An expression. -/
inductive Expr where
  /-- The value of a variable. -/
  | var (v : VarId)
  /-- The element of `base` at `at_`; whether `base` is an array is not checked. -/
  | element (base : VarId) (at_ : Expr)
  /-- An integer constant. -/
  | int (value : Int)
  /-- Text that is printed as it stands: an array initializer, a quoted string, a helper's condition. -/
  | literal (text : String)
  /-- A binary operation. -/
  | binary (lhs : Expr) (op : Operation) (rhs : Expr)
  /-- A call; `Registry.call` checks the number of arguments. -/
  | call (callee : FuncId) (args : List Expr)
deriving Repr, Inhabited

/-- What can stand left of an assignment sign. -/
inductive Place where
  /-- A variable. -/
  | var (v : VarId)
  /-- An element of an array. -/
  | element (base : VarId) (at_ : Expr)
deriving Repr, Inhabited

/-- A place, read. -/
def Place.toExpr : Place → Expr
  | .var v => .var v
  | .element base at_ => .element base at_

/-- What a declaration introduces. -/
inductive Declarator where
  /-- A single value. -/
  | scalar (v : VarId)
  /-- An array that takes its length from its initializer. -/
  | array (v : VarId)
deriving DecidableEq, Repr, Inhabited

/-- The variable that a declaration introduces. -/
def Declarator.variable : Declarator → VarId
  | .scalar v | .array v => v

/-- A statement. A block is a list of statements. -/
inductive Stmt where
  /-- An assignment, combined with an operation or plain. -/
  | assign (target : Place) (op : Option Operation) (value : Expr)
  /-- A declaration with its initial value. -/
  | declare (type : ValueType) (declarator : Declarator) (value : Expr)
  /-- A conditional, with or without an alternative. -/
  | branch (condition : Expr) (body : List Stmt) (alternative : Option (List Stmt))
  /-- A loop with a header of three parts. -/
  | count (start : Stmt) (condition : Expr) (step : Stmt) (body : List Stmt)
  /-- A loop that runs while its condition holds. -/
  | loop (condition : Expr) (body : List Stmt)
  /-- The end of a function with a result. -/
  | result (value : Expr)
  /-- An expression evaluated for its effect. -/
  | effect (value : Expr)
  /-- A line that is printed as it stands. -/
  | raw (line : String)
deriving Repr, Inhabited

/-- Statements in sequence. -/
abbrev Block := List Stmt

/-- A function. -/
structure Func where
  /-- The type of its result. -/
  returnType : ValueType
  /-- Its name. -/
  name : Symbol
  /-- Its parameters. -/
  params : List VarId
  /-- Its body, missing until `Registry.setBody` gives it one. -/
  body : Option Block := none
deriving Repr, Inhabited

/-- How many arguments a call of the function takes. -/
def Func.arity (f : Func) : Nat := f.params.length

namespace Stmt

/-- The statement `v = value;`. -/
def set (v : VarId) (value : Expr) : Stmt := .assign (.var v) none value

/-- The statement `v op= value;`. -/
def update (v : VarId) (op : Operation) (value : Expr) : Stmt := .assign (.var v) (some op) value

/-- The declaration of a single value. -/
def scalar (type : ValueType) (v : VarId) (value : Expr) : Stmt := .declare type (.scalar v) value

/-- A conditional without an alternative. -/
def whenever (condition : Expr) (body : Block) : Stmt := .branch condition body none

end Stmt

end SeedCorpus
