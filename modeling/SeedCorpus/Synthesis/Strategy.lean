/-
  What a way of making programs has to answer.

  All programs share one frame: functions that call each other under a shrinking argument, and a `main` that calls them.
  Where the values come from and go to is left to a `Strategy`: which variables there are and which of them are
  parameters, what reading and writing a value looks like, and which files go with the program.  A strategy may keep
  notes of its own (`σ`) from one question to the next, and from one program to the next.

  The types of the questions say what a strategy may touch.  `Declaring` acts may add to the registry; `Drawing` acts see
  a finished registry and draw random numbers.  Both keep what they did when they fail: a failed act leaves the
  declarations, the draws and the notes that it had made.
-/
import SeedCorpus.Registry
import SeedCorpus.Random.Source

namespace SeedCorpus

open SeedCorpus.Random (Source)

/-! ## Roles -/

/-- The variables that every generated function refers to. -/
structure Roles where
  /-- The argument that limits the depth of calls. -/
  arg : VarId
  /-- The running total, which is also the result. -/
  sum : VarId
  /-- The counter of counting loops. -/
  counter : VarId
  /-- The shared array, if there is one. -/
  arr : Option VarId
deriving DecidableEq, Repr, Inhabited

/-- The roles by position: the first three variables of the type `int`, and the first of the type `array`. -/
def Roles.ofPools (r : Registry) : Except SynthesisError Roles := do
  let ints := r.variablesOf (← r.type "int")
  let nth (position : Nat) (name : String) : Except SynthesisError VarId :=
    match ints[position]? with
    | some v => .ok v
    | none => .error (.unknownSymbol .variable name)
  let arg ← nth 0 "arg"
  let sum ← nth 1 "sum"
  let counter ← nth 2 "i"
  let array ← r.type "array"
  return { arg, sum, counter, arr := (r.variablesOf array).head? }

/-- The shared array, for a statement that cannot do without it. -/
def Roles.array (roles : Roles) : Except SynthesisError VarId :=
  match roles.arr with
  | some v => .ok v
  | none => .error (.unknownSymbol .type "array")

/-! ## Acts -/

/-- An act that may declare names. -/
abbrev Declaring (σ : Type) := EStateM SynthesisError (Registry × σ)

/-- An act that may draw random numbers. -/
abbrev Drawing (σ : Type) := EStateM SynthesisError (Source × σ)

/-- Takes an answer that may be a refusal. -/
def orFail {s α : Type} (answer : Except SynthesisError α) : EStateM SynthesisError s α :=
  match answer with
  | .ok a => pure a
  | .error e => throw e

/-- The outcome of an act and the state that it left, which is kept also when the act failed. -/
def outcome {s α : Type} (act : EStateM SynthesisError s α) (state : s) : Except SynthesisError α × s :=
  match act state with
  | .ok a state => (.ok a, state)
  | .error e state => (.error e, state)

namespace Declaring

variable {σ : Type}

/-- The registry as it stands. -/
def registry : Declaring σ Registry := do return (← get).1

/-- Changes the registry by a declaration that gives out an id. -/
def declare {α : Type} (act : Registry → α × Registry) : Declaring σ α :=
  modifyGet fun (r, notes) =>
    let (a, r) := act r
    (a, r, notes)

/-- The type registered under a key. -/
def type (key : String) : Declaring σ ValueType := do orFail ((← registry).type key)

/-- Declares a variable. -/
def newVariable (t : ValueType) (name : String) : Declaring σ VarId := declare (·.declareVariable t name)

/-- Declares a function. -/
def newFunction (t : ValueType) (name : String) (params : List VarId) : Declaring σ FuncId :=
  declare (·.declareFunction t name params)

/-- Gives a function its body. -/
def setBody (id : FuncId) (body : Block) : Declaring σ Unit := declare fun r => ((), r.setBody id body)

/-- Changes the notes. -/
def note (change : σ → σ) : Declaring σ Unit := modify fun (r, notes) => (r, change notes)

end Declaring

namespace Drawing

variable {σ : Type}

/-- Draws from the source. -/
def draw {α : Type} (act : Source → α × Source) : Drawing σ α :=
  modifyGet fun (g, notes) =>
    let (a, g) := act g
    (a, g, notes)

/-- Draws a position below `n`; there is none below zero. -/
def below (n : Nat) : Drawing σ Nat := if n = 0 then throw .emptyRange else draw (·.below n)

/-- Draws a number from 0 up to `bound`; there is none up to a negative bound. -/
def upTo (bound : Int) : Drawing σ Nat := if bound < 0 then throw .emptyRange else draw (·.upTo bound.toNat)

/-- Draws `count` numbers from 0 up to `bound`. -/
def manyUpTo (bound : Int) : Nat → Drawing σ (List Nat)
  | 0 => pure []
  | count + 1 => do
    let n ← upTo bound
    return n :: (← manyUpTo bound count)

/-- The notes as they stand. -/
def notes : Drawing σ σ := do return (← get).2

/-- Changes the notes. -/
def note (change : σ → σ) : Drawing σ Unit := modify fun (g, notes) => (g, change notes)

end Drawing

/-! ## Strategies -/

/-- A file that a program expects beside it when it runs. -/
structure AuxFile where
  /-- The name. -/
  name : String
  /-- The text. -/
  contents : String
deriving DecidableEq, Repr, Inhabited

/-- A way of making programs that keeps notes of type `σ`. -/
structure Strategy (σ : Type) where
  /-- Declares the variables that all functions refer to. -/
  roles : Declaring σ Roles
  /-- The parameters of every generated function. -/
  params : σ → Roles → List VarId
  /-- Declares functions of fixed content that stand before the generated ones. -/
  helpers : Declaring σ (List FuncId)
  /-- The arguments of a call, from the new value of the argument that limits the depth. -/
  callArgs : σ → Roles → Expr → List Expr
  /-- The condition of a conditional loop. -/
  loopGuard : σ → Registry → Roles → Except SynthesisError Expr
  /-- A statement that reads a value. -/
  read : Registry → Roles → Nat → Drawing σ Stmt
  /-- A statement that stores the value of a call where it can be seen. -/
  write : Registry → Roles → Expr → Nat → Drawing σ Stmt
  /-- Statements of `main` between the declaration of the total and the calls. -/
  prelude : Registry → Roles → Nat → Drawing σ Block
  /-- Hands over the files that go with the program. -/
  takeFiles : σ → List AuxFile × σ

/-! ## What strategies share -/

/-- An integer as 64 bits with a sign show it. -/
def wrapInt64 (n : Nat) : Int := (n : Int).bmod (2 ^ 64)

/-- The greatest value that is drawn as content, for programs of a size. -/
def valueBound (size : Nat) : Int := wrapInt64 (size * size)

/-- Declares the three variables of type `int` that the roles stand for. -/
def declareIntRoles {σ : Type} : Declaring σ Unit := do
  let int ← Declaring.type "int"
  for name in ["arg", "sum", "i"] do
    let _ ← Declaring.newVariable int name

/-- The condition that a variable is positive. -/
def positive (r : Registry) (v : VarId) : Except SynthesisError Expr := do
  let gt ← r.operation "gt"
  return .binary (.var v) gt (.int 0)

end SeedCorpus
