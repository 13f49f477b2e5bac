/-
  Programs from random draws.

  `synthesize` declares the roles, announces all functions, lets the strategy declare its helpers, and then draws one
  body after the other, each with as many drawn statements as the budget says between a fixed beginning and end.  Since
  every function is announced before the first body is drawn, calls can go forwards and back.  At last `main` is drawn,
  everything is put together in the order of the text, and the strategy hands over its files.

  A run starts from a registry of its own.  What lives on from run to run, failed ones too, is the random source and the
  notes of the strategy.
-/
import SeedCorpus.Synthesis.ArrayBacked
import SeedCorpus.Synthesis.FileBacked
import SeedCorpus.Syntax.Rendering
import SeedCorpus.Folder.Tree

namespace SeedCorpus

open SeedCorpus.Random (Source)

variable {σ : Type}

/-! ## Settings -/

/-- The built-in strategies. -/
inductive StrategyKind where
  /-- Functions share an array. -/
  | tree
  /-- Reads and writes go through files. -/
  | flat
deriving DecidableEq, Repr, Inhabited

/-- The word for a strategy. -/
def StrategyKind.word : StrategyKind → String
  | .tree => "tree"
  | .flat => "flat"

/-- What to synthesize. -/
structure SynthesisConfig where
  /-- How reads and writes work. -/
  strategy : StrategyKind := .tree
  /-- The number of functions besides `main`. -/
  functions : Nat := 4
  /-- The number of drawn statements of a function, if it is not the number of functions. -/
  statements : Option Nat := none
  /-- The seed, for a repeatable program. -/
  seed : Option Nat := none
deriving DecidableEq, Repr, Inhabited

/-- The number of drawn statements of a function. -/
def SynthesisConfig.budget (c : SynthesisConfig) : Nat := c.statements.getD c.functions

/-! ## Statements -/

/-- The shapes that drawn statements have. -/
inductive StatementKind where
  /-- A call if the argument is positive. -/
  | guardedCall
  /-- A loop that counts up to the total and calls in every round. -/
  | countedLoop
  /-- A loop under the strategy's condition that calls in every round. -/
  | conditionedLoop
  /-- A value read in the strategy's way. -/
  | read
  /-- The value of a call stored in the strategy's way. -/
  | write
deriving DecidableEq, Repr, Inhabited

/-- All shapes, in the order in which the draw numbers them. -/
def StatementKind.all : List StatementKind := [.guardedCall, .countedLoop, .conditionedLoop, .read, .write]

/-- Draws a shape, all alike likely. -/
def StatementKind.draw : Drawing σ StatementKind := do
  let n ← Drawing.below all.length
  return all[n]?.getD .write

/-- What the statements of one function are drawn with. -/
structure Frame where
  /-- The variables in their roles. -/
  roles : Roles
  /-- The functions that can be called. -/
  tests : List FuncId
deriving DecidableEq, Repr, Inhabited

/-- The number of functions, on which all ranges of draws depend. -/
def Frame.size (f : Frame) : Nat := f.tests.length

/-- Draws a function and calls it with an argument. -/
def drawCall (s : Strategy σ) (r : Registry) (f : Frame) (adjusted : Expr) : Drawing σ Expr := do
  let n ← Drawing.below f.size
  let callee := f.tests[n]?.getD ⟨0⟩
  orFail (r.call callee (s.callArgs (← Drawing.notes) f.roles adjusted))

/-- The operations that generated functions use. -/
structure Operators where
  /-- Addition. -/
  plus : Operation
  /-- Subtraction. -/
  minus : Operation
  /-- Division. -/
  div : Operation
  /-- Comparison. -/
  gt : Operation
deriving DecidableEq, Repr, Inhabited

/-- Looks the operations up. -/
def Operators.find (r : Registry) : Except SynthesisError Operators := do
  let plus ← r.operation "sum"
  let minus ← r.operation "dif"
  let div ← r.operation "div"
  let gt ← r.operation "gt"
  return { plus, minus, div, gt }

/-- Draws a statement of a shape. -/
def drawOfKind (s : Strategy σ) (r : Registry) (f : Frame) (int : ValueType) (ops : Operators) :
    StatementKind → Drawing σ Stmt
  | .guardedCall => do
    let call ← drawCall s r f (.binary (.var f.roles.arg) ops.minus (.int 1))
    return .whenever (.binary (.var f.roles.arg) ops.gt (.int 0)) [.set f.roles.sum call]
  | .countedLoop => do
    let i := f.roles.counter
    let call ← drawCall s r f (.binary (.var f.roles.arg) ops.minus (.var i))
    return .count (.scalar int i (.int 1)) (.binary (.var f.roles.sum) ops.gt (.var i))
      (.update i ops.plus (.int 1)) [.update f.roles.sum ops.plus call]
  | .conditionedLoop => do
    let call ← drawCall s r f (.binary (.var f.roles.arg) ops.minus (.int 1))
    let condition ← orFail (s.loopGuard (← Drawing.notes) r f.roles)
    return .loop condition [.update f.roles.sum ops.plus call]
  | .read => s.read r f.roles f.size
  | .write => do
    let call ← drawCall s r f (.binary (.var f.roles.arg) ops.div (.int 2))
    s.write r f.roles call f.size

/-- Draws statements. -/
def drawStatements (s : Strategy σ) (r : Registry) (f : Frame) (int : ValueType) (ops : Operators) :
    Nat → Drawing σ Block
  | 0 => pure []
  | count + 1 => do
    let kind ← StatementKind.draw
    let statement ← drawOfKind s r f int ops kind
    return statement :: (← drawStatements s r f int ops count)

/-! ## Functions -/

/-- The name of the function of a number. -/
def testName (number : Nat) : String := "test_" ++ toString number

/-- The line that reports a call of the function of a number. -/
def traceLine (number : Nat) (arg : String) : String :=
  "printf(\x22func " ++ toString number ++ " " ++ arg ++ " %d\\n\x22, " ++ arg ++ ");"

/-- Draws the body of the function of a number. -/
def drawBody (s : Strategy σ) (r : Registry) (f : Frame) (number budget : Nat) : Drawing σ Block := do
  let int ← orFail (r.type "int")
  let ops ← orFail (Operators.find r)
  let drawn ← drawStatements s r f int ops budget
  return [.raw (traceLine number (r.variableName f.roles.arg)), .raw "fflush(stdout);",
      .scalar int f.roles.sum (.int 0)]
    ++ drawn ++ [.result (.var f.roles.sum)]

/-- Draws the bodies of the functions with the given numbers, each into the registry before the next. -/
def drawBodies (s : Strategy σ) (f : Frame) (budget : Nat) (r : Registry) :
    List (Nat × FuncId) → Drawing σ Registry
  | [] => pure r
  | (number, id) :: rest => do
    let body ← drawBody s r f number budget
    drawBodies s f budget (r.setBody id body) rest

/-- Draws calls of `main`, each with a start value. -/
def drawStarts (s : Strategy σ) (r : Registry) (f : Frame) (plus : Operation) : Nat → Drawing σ Block
  | 0 => pure []
  | count + 1 => do
    let start ← Drawing.upTo (valueBound f.size)
    let call ← drawCall s r f (.int start)
    return .update f.roles.sum plus call :: (← drawStarts s r f plus count)

/-- Draws the body of `main`. -/
def drawMain (s : Strategy σ) (r : Registry) (f : Frame) : Drawing σ Block := do
  let int ← orFail (r.type "int")
  let plus ← orFail (r.operation "sum")
  let prelude ← s.prelude r f.roles f.size
  let starts ← drawStarts s r f plus f.size
  return .scalar int f.roles.sum (.int 0) :: prelude ++ starts ++ [.result (.var f.roles.sum)]

/-! ## Putting a program together -/

/-- The libraries that every program includes. -/
def includes : List String := ["stdio", "stdlib"]

/-- The text of a function that has a body. -/
def renderDefinition (r : Registry) (id : FuncId) : Except SynthesisError String :=
  match r.functionAt? id with
  | some f => if f.body.isSome then .ok (f.render r) else .error (.missingBody (r.text f.name))
  | none => .error (.missingBody (r.functionName id))

/-- The sections of a program: includes, announcements, helpers, generated functions and `main`. -/
def sections (r : Registry) (tests helpers : List FuncId) (main : FuncId) : Except SynthesisError (List String) := do
  let prototypes := tests.map fun id => ((r.functionAt? id).map (Func.renderPrototype r)).getD ""
  let definitions ← (helpers ++ tests ++ [main]).mapM (renderDefinition r)
  return includes.map (fun lib => "#include <" ++ lib ++ ".h>") ++ prototypes ++ definitions

/-- The text of a program from its sections: an empty line between them, a newline at the end. -/
def joinSections (texts : List String) : String := "\n\n".intercalate texts ++ "\n"

/-- A program and the files that go with it. -/
structure Program where
  /-- The text of the program. -/
  source : String
  /-- The files that it reads, in the order in which they are to be written. -/
  auxFiles : List AuxFile
deriving DecidableEq, Repr, Inhabited

/-- The files of a program under a name, in the order in which they are written: the source first. -/
def Program.files (p : Program) (name : String) : List AuxFile :=
  { name := name ++ ".c", contents := p.source } :: p.auxFiles

/-- Writes files into the folder that `path` leads to, one after the other, up to the first that cannot be written. -/
def writeFiles (path : String) (t : FileTree) : List AuxFile → Except FileError Unit × FileTree
  | [] => (.ok (), t)
  | file :: rest =>
    match t.write (Path.join path file.name) file.contents.toUTF8 with
    | .ok t => writeFiles path t rest
    | .error e => (.error e, t)

/-- Writes a program and its files into the folder that `path` leads to. What was written before a failure stays. -/
def Program.writeTo (p : Program) (t : FileTree) (path name : String) : Except SynthesisError String × FileTree :=
  match writeFiles path t (p.files name) with
  | (.ok (), t) => (.ok (Path.join path (name ++ ".c")), t)
  | (.error e, t) => (.error (.storage e), t)

/-- What a run has declared before it draws. -/
structure Outline where
  /-- The variables in their roles. -/
  roles : Roles
  /-- The generated functions, in order. -/
  tests : List FuncId
  /-- The helpers of the strategy, in order. -/
  helpers : List FuncId
deriving DecidableEq, Repr, Inhabited

/-- Declares everything but `main`. -/
def declareAll (s : Strategy σ) (size : Nat) : Declaring σ Outline := do
  let roles ← s.roles
  let int ← Declaring.type "int"
  let params := s.params (← get).2 roles
  let tests ← (List.range size).mapM fun k => Declaring.newFunction int (testName k) params
  let helpers ← s.helpers
  return { roles, tests, helpers }

/-- Declares on a fresh registry, as part of a run. -/
def onFreshRegistry {α : Type} (act : Declaring σ α) : Drawing σ (α × Registry) := fun (g, notes) =>
  match act (Registry.withCTypes, notes) with
  | .ok a (r, notes) => .ok (a, r) (g, notes)
  | .error e (_, notes) => .error e (g, notes)

/-- A program before it is written down: what it declares, and which functions it is made of. -/
structure Assembly where
  /-- All declarations. -/
  registry : Registry
  /-- The generated functions, in order. -/
  tests : List FuncId
  /-- The helpers of the strategy, in order. -/
  helpers : List FuncId
  /-- The function that the program starts with. -/
  main : FuncId
deriving Repr, Inhabited

/-- Draws all functions of a program. -/
def assemble (s : Strategy σ) (config : SynthesisConfig) : Drawing σ Assembly := do
  if config.functions = 0 then throw .noFunctions
  let (outline, r) ← onFreshRegistry (declareAll s config.functions)
  let frame : Frame := { roles := outline.roles, tests := outline.tests }
  let r ← drawBodies s frame config.budget r ((List.range config.functions).zip outline.tests)
  let mainBody ← drawMain s r frame
  let int ← orFail (r.type "int")
  let (main, r) := r.declareFunction int "main" []
  return { registry := r.setBody main mainBody, tests := outline.tests, helpers := outline.helpers, main }

/-- Makes a program. -/
def synthesize (s : Strategy σ) (config : SynthesisConfig) : Drawing σ Program := do
  let a ← assemble s config
  let texts ← orFail (sections a.registry a.tests a.helpers a.main)
  let auxFiles ← modifyGet fun (g, notes) =>
    let (files, notes) := s.takeFiles notes
    (files, g, notes)
  return { source := joinSections texts, auxFiles }

/-- The outcomes of several runs with one strategy object and one source, failed runs among them. -/
def synthesizeMany (s : Strategy σ) (config : SynthesisConfig) (state : Source × σ) :
    Nat → List (Except SynthesisError Program) × (Source × σ)
  | 0 => ([], state)
  | count + 1 =>
    let (first, state) := outcome (synthesize s config) state
    let (rest, state) := synthesizeMany s config state count
    (first :: rest, state)

/-- The program of a configuration, from the start of a source. -/
def generate (config : SynthesisConfig) (g : Source) : Except SynthesisError Program :=
  match config.strategy with
  | .tree => (outcome (synthesize arrayBacked config) (g, ())).1
  | .flat => (outcome (synthesize fileBacked config) (g, {})).1

end SeedCorpus
