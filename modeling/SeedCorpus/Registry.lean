/-
  Everything that one program declares.

  A `Registry` holds the types and operators a program may use, each under a key of its own (`int` may be spelled
  `long`), the variables created so far and the functions that are being built.  It only grows: ids stay valid, names
  stay as they were, and the one thing that changes in place is the body of a function.  A key that is registered again
  means the new spelling from then on; what was declared before keeps the old type.

  Variables are also filed by type.  A type is known by its spelling, so two keys with one spelling share a pool.
-/
import SeedCorpus.Syntax.Basic
import SeedCorpus.Synthesis.Error

namespace SeedCorpus

/-- The declarations of one program. -/
structure Registry where
  /-- The names in use. -/
  symbols : SymbolTable := {}
  /-- The types by key; an entry hides those after it. -/
  types : List (String × ValueType) := []
  /-- The operations by key; an entry hides those after it. -/
  operations : List (String × Operation) := []
  /-- The variables, in order of declaration. -/
  vars : Array Variable := #[]
  /-- The variables of each type, in order of declaration; an entry hides those after it. -/
  pools : List (ValueType × List VarId) := []
  /-- The functions, in order of declaration. -/
  functions : Array Func := #[]
deriving Repr, Inhabited

namespace Registry

/-! ## Types and operations -/

/-- Registers a type under a key. -/
def registerType (r : Registry) (key spelling : String) : ValueType × Registry :=
  let (s, symbols) := r.symbols.intern spelling
  (⟨s⟩, { r with symbols, types := (key, ⟨s⟩) :: r.types })

/-- Registers an operation under a key. -/
def registerOperation (r : Registry) (key sign : String) : Operation × Registry :=
  let (s, symbols) := r.symbols.intern sign
  (⟨s⟩, { r with symbols, operations := (key, ⟨s⟩) :: r.operations })

/-- The type registered under a key. -/
def type (r : Registry) (key : String) : Except SynthesisError ValueType :=
  match r.types.lookup key with
  | some t => .ok t
  | none => .error (.unknownSymbol .type key)

/-- The operation registered under a key. -/
def operation (r : Registry) (key : String) : Except SynthesisError Operation :=
  match r.operations.lookup key with
  | some op => .ok op
  | none => .error (.unknownSymbol .operation key)

/-- The types of generated programs, by key. -/
def cTypes : List (String × String) :=
  [("int", "int"), ("array", "int*"), ("string", "const char*"), ("void", "void")]

/-- The operations of generated programs, by key. -/
def cOperations : List (String × String) :=
  [("sum", "+"), ("dif", "-"), ("mul", "*"), ("div", "/"), ("gt", ">")]

/-- A registry that holds the types and operations of generated programs. -/
def withCTypes : Registry :=
  let r := cTypes.foldl (fun r (key, spelling) => (r.registerType key spelling).2) {}
  cOperations.foldl (fun r (key, sign) => (r.registerOperation key sign).2) r

/-! ## Variables -/

/-- The variables of a type, in order of declaration. -/
def variablesOf (r : Registry) (t : ValueType) : List VarId := (r.pools.lookup t).getD []

/-- Creates a variable and files it under its type. -/
def declareVariable (r : Registry) (t : ValueType) (name : String) : VarId × Registry :=
  let (s, symbols) := r.symbols.intern name
  let id : VarId := ⟨r.vars.size⟩
  (id, { r with
    symbols
    vars := r.vars.push { name := s, type := t }
    pools := (t, r.variablesOf t ++ [id]) :: r.pools })

/-- The variable behind an id. -/
def variableAt? (r : Registry) (id : VarId) : Option Variable := r.vars[id.index]?

/-! ## Functions -/

/-- Announces a function; it has no body yet, so that later bodies can call it. -/
def declareFunction (r : Registry) (returnType : ValueType) (name : String) (params : List VarId) : FuncId × Registry :=
  let (s, symbols) := r.symbols.intern name
  (⟨r.functions.size⟩, { r with symbols, functions := r.functions.push { returnType, name := s, params } })

/-- The function behind an id. -/
def functionAt? (r : Registry) (id : FuncId) : Option Func := r.functions[id.index]?

/-- Gives a function its body, in place of one that it may have.  The function has to be one that was issued: for any other
id this is a fault which ends the program, and here it changes nothing. -/
def setBody (r : Registry) (id : FuncId) (body : Block) : Registry :=
  { r with functions := r.functions.modify id.index ({ · with body := some body }) }

/-! ## Names -/

/-- The text of a symbol. -/
def text (r : Registry) (s : Symbol) : String := r.symbols.text s

/-- The spelling of a type. -/
def spelling (r : Registry) (t : ValueType) : String := r.text t.spelling

/-- The name of a variable; empty for an id of another registry. -/
def variableName (r : Registry) (id : VarId) : String := ((r.variableAt? id).map (r.text ·.name)).getD ""

/-- The name of a function; empty for an id of another registry. -/
def functionName (r : Registry) (id : FuncId) : String := ((r.functionAt? id).map (r.text ·.name)).getD ""

/-- The number of arguments that a function takes.  To ask for that of an id that was never issued is a fault which ends the
program; the zero that is answered here in that case means nothing. -/
def arity (r : Registry) (id : FuncId) : Nat := ((r.functionAt? id).map (·.arity)).getD 0

/-- A call, refused if the number of arguments is not the number of the callee's parameters.  The callee has to be a function
that was issued: to call any other id is a fault which ends the program, and here it is taken for one without parameters. -/
def call (r : Registry) (callee : FuncId) (args : List Expr) : Except SynthesisError Expr :=
  if args.length = r.arity callee then .ok (.call callee args)
  else .error (.arityMismatch (r.functionName callee) (r.arity callee) args.length)

end Registry

end SeedCorpus
