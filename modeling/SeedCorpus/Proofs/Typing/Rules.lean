/-
  When programs are well-scoped and well-typed.

  1. **Names**: a name stands for what the innermost block that introduces it says (`Scope.resolve`), and no block
     introduces one name twice (`Scope.Free`).  Parameters belong to the outermost block of their function.

  2. **Types** are known by their spellings.  `Expr.HasType` reads an expression and `Stmt.Typed` a statement, which may
     leave more names behind than it has found.  Lines that are printed as they stand have rules of their own,
     one for each line that is known, so the names in them are looked up as well.

  3. **Functions** are called by ids; the ones that can be called in a function are those with an announcement and those
     that are defined further up (`Assembly.WellTyped`).  A call is right if nothing else hides the name of the function,
     and if the types of the arguments are those of the parameters in their order.
-/
import SeedCorpus.Proofs.Synthesis.Growth
import SeedCorpus.Synthesis.Program

namespace SeedCorpus

/-! ## Names -/

/-- What a name can stand for. -/
inductive Binding where
  /-- A variable. -/
  | variable (v : VarId)
  /-- The file `f` that a helper has opened. -/
  | file
deriving DecidableEq, Repr

/-- The name. -/
def Binding.name (r : Registry) : Binding → String
  | .variable v => r.variableName v
  | .file => "f"

/-- The names that are known at some place in a function. -/
structure Scope where
  /-- What the innermost block has introduced, the last first. -/
  inner : List Binding
  /-- What the blocks around it have introduced, the inner ones first. -/
  outer : List Binding
deriving DecidableEq, Repr

namespace Scope

/-- What the innermost block and those around it have introduced. -/
def known (s : Scope) : List Binding := s.inner ++ s.outer

/-- What a name stands for. -/
def resolve (r : Registry) (s : Scope) (name : String) : Option Binding := s.known.find? fun b => b.name r = name

/-- The innermost block has not introduced a name. -/
def Free (r : Registry) (s : Scope) (name : String) : Prop := ∀ b ∈ s.inner, b.name r ≠ name

/-- The scope at the beginning of a block. -/
def enter (s : Scope) : Scope := { inner := [], outer := s.known }

/-- The scope behind a declaration. -/
def declare (s : Scope) (b : Binding) : Scope := { s with inner := b :: s.inner }

/-- The scope at the beginning of a function. -/
def ofParams (params : List VarId) : Scope := { inner := params.map .variable, outer := [] }

/-- A variable is what its name stands for, and it has a type. -/
structure Shows (r : Registry) (s : Scope) (v : VarId) (type : String) : Prop where
  /-- Its name stands for it. -/
  found : s.resolve r (r.variableName v) = some (.variable v)
  /-- The type is as it is spelled. -/
  typed : r.typeName v = type

end Scope

/-! ## Expressions -/

/-- What the statements of a function depend on. -/
structure Context where
  /-- The declarations. -/
  registry : Registry
  /-- The functions that can be called. -/
  callable : List FuncId
  /-- The type of the result. -/
  returns : String

/-- The signs of operations on integers that combine with an assignment. -/
def arithmeticSigns : List String := ["+", "-", "*", "/", "%"]

/-- The signs of comparisons. -/
def comparisonSigns : List String := ["<", ">", "<=", ">=", "==", "!="]

/-- A text that stands for itself between double quotes. -/
def IsPlain (text : String) : Prop := ∀ ch ∈ text.toList, ch ≠ '\x22' ∧ ch ≠ '\\' ∧ ch ≠ '\n'

mutual

/-- An expression has a type. -/
inductive Expr.HasType (c : Context) (s : Scope) : Expr → String → Prop where
  /-- A variable that is known. -/
  | var {v type} (shown : s.Shows c.registry v type) : Expr.HasType c s (.var v) type
  /-- An element of an array. -/
  | element {base at_} (shown : s.Shows c.registry base "int*") (position : Expr.HasType c s at_ "int") :
    Expr.HasType c s (.element base at_) "int"
  /-- A number. -/
  | int {value} : Expr.HasType c s (.int value) "int"
  /-- A text in double quotes. -/
  | quoted {text} (plain : IsPlain text) : Expr.HasType c s (.literal ("\x22" ++ text ++ "\x22")) "const char*"
  /-- Whether a file could not be opened. -/
  | openFailed (opened : s.resolve c.registry "f" = some .file) : Expr.HasType c s (.literal "f == NULL") "int"
  /-- Whether a number could be read from a file. -/
  | scanned {v} (opened : s.resolve c.registry "f" = some .file) (shown : s.Shows c.registry v "int") :
    Expr.HasType c s (.literal ("fscanf(f, \x22%d\x22, &" ++ c.registry.variableName v ++ ") == 1")) "int"
  /-- An operation on integers. -/
  | binary {lhs op rhs} (left : Expr.HasType c s lhs "int")
    (sign : c.registry.text op.sign ∈ arithmeticSigns ++ comparisonSigns) (right : Expr.HasType c s rhs "int") :
    Expr.HasType c s (.binary lhs op rhs) "int"
  /-- A call: the function can be called, no other meaning of its name hides it, and the arguments have the types of the
  parameters. -/
  | call {callee args type name params} (callable : callee ∈ c.callable)
    (announced : c.registry.Announces callee type name params) (visible : s.resolve c.registry name = none)
    (arguments : Expr.HaveTypes c s args (params.map c.registry.typeName)) : Expr.HasType c s (.call callee args) type

/-- Expressions have types, each its own. -/
inductive Expr.HaveTypes (c : Context) (s : Scope) : List Expr → List String → Prop where
  /-- No expressions. -/
  | nil : Expr.HaveTypes c s [] []
  /-- One more expression. -/
  | cons {e es type types} (first : Expr.HasType c s e type) (rest : Expr.HaveTypes c s es types) :
    Expr.HaveTypes c s (e :: es) (type :: types)

end

/-! ## Statements -/

mutual

/-- A statement is right in a scope, and behind it stands another scope. -/
inductive Stmt.Typed (c : Context) : Scope → Stmt → Scope → Prop where
  /-- An assignment, combined with an operation or plain. -/
  | assign {s target op value} (place : Expr.HasType c s target.toExpr "int")
    (sign : ∀ o, op = some o → c.registry.text o.sign ∈ arithmeticSigns) (assigned : Expr.HasType c s value "int") :
    Stmt.Typed c s (.assign target op value) s
  /-- The declaration of a single value. -/
  | scalar {s type v value} (declared : c.registry.spelling type = c.registry.typeName v)
    (initial : Expr.HasType c s value (c.registry.typeName v)) (free : s.Free c.registry (c.registry.variableName v)) :
    Stmt.Typed c s (.declare type (.scalar v) value) (s.declare (.variable v))
  /-- The declaration of an array, which is later known by the address of its first element. -/
  | array {s type v} {values : List Nat} (declared : c.registry.spelling type = "int")
    (known : c.registry.typeName v = "int*") (filled : values ≠ []) (free : s.Free c.registry (c.registry.variableName v)) :
    Stmt.Typed c s (.declare type (.array v) (.literal ("\x7b" ++ ", ".intercalate (values.map toString) ++ "\x7d")))
      (s.declare (.variable v))
  /-- A conditional. -/
  | whenever {s t condition body} (asked : Expr.HasType c s condition "int") (inside : Block.Typed c s.enter body t) :
    Stmt.Typed c s (.branch condition body none) s
  /-- A conditional with an alternative. -/
  | either {s t u condition body other} (asked : Expr.HasType c s condition "int")
    (inside : Block.Typed c s.enter body t) (otherwise : Block.Typed c s.enter other u) :
    Stmt.Typed c s (.branch condition body (some other)) s
  /-- A counting loop, whose header is a block around its body. -/
  | count {s t u start condition step body} (header : Stmt.Typed c s.enter start t)
    (asked : Expr.HasType c t condition "int") (again : Stmt.Typed c t step t) (inside : Block.Typed c t.enter body u) :
    Stmt.Typed c s (.count start condition step body) s
  /-- A conditioned loop. -/
  | loop {s t condition body} (asked : Expr.HasType c s condition "int") (inside : Block.Typed c s.enter body t) :
    Stmt.Typed c s (.loop condition body) s
  /-- A result. -/
  | result {s value} (notVoid : c.returns ≠ "void") (returned : Expr.HasType c s value c.returns) :
    Stmt.Typed c s (.result value) s
  /-- An expression evaluated for its effect. -/
  | effect {s value type} (evaluated : Expr.HasType c s value type) : Stmt.Typed c s (.effect value) s
  /-- The line that reports a call. -/
  | traced {s v} {number : Nat} (shown : s.Shows c.registry v "int") (plain : IsPlain (c.registry.variableName v)) :
    Stmt.Typed c s (.raw ("printf(\x22func " ++ toString number ++ " " ++ c.registry.variableName v ++ " %d\\n\x22, "
      ++ c.registry.variableName v ++ ");")) s
  /-- The line that makes sure that the report is seen. -/
  | flushed {s} : Stmt.Typed c s (.raw "fflush(stdout);") s
  /-- The line that opens a file. -/
  | opened {s path mode} (shown : s.Shows c.registry path "const char*") (plain : IsPlain mode)
    (free : s.Free c.registry "f") : Stmt.Typed c s
      (.raw ("FILE* f = fopen(" ++ c.registry.variableName path ++ ", \x22" ++ mode ++ "\x22);")) (s.declare .file)
  /-- The line that writes a number to a file. -/
  | printed {s v} (opened : s.resolve c.registry "f" = some .file) (shown : s.Shows c.registry v "int") :
    Stmt.Typed c s (.raw ("fprintf(f, \x22%d\\n\x22, " ++ c.registry.variableName v ++ ");")) s
  /-- The line that closes a file. -/
  | closed {s} (opened : s.resolve c.registry "f" = some .file) : Stmt.Typed c s (.raw "fclose(f);") s
  /-- The line that ends a function without a result. -/
  | left {s} (void : c.returns = "void") : Stmt.Typed c s (.raw "return;") s

/-- Statements are right one after the other. -/
inductive Block.Typed (c : Context) : Scope → List Stmt → Scope → Prop where
  /-- No statements. -/
  | nil {s} : Block.Typed c s [] s
  /-- One more statement. -/
  | cons {s t u first rest} (head : Stmt.Typed c s first t) (tail : Block.Typed c t rest u) :
    Block.Typed c s (first :: rest) u

end

/-! ## Functions and programs -/

/-- A function has a body, and it is right if certain functions can be called. -/
structure Registry.Defines (r : Registry) (callable : List FuncId) (id : FuncId) (returnType name : String)
    (params : List VarId) (body : Block) : Prop where
  /-- The head of the function. -/
  head : r.Announces id returnType name params
  /-- Its body. -/
  present : r.bodyOf id = some body
  /-- Its parameters have different names. -/
  distinct : (params.map r.variableName).Nodup
  /-- Its statements are right. -/
  statements : ∃ s, Block.Typed { registry := r, callable, returns := returnType } (.ofParams params) body s
  /-- If it has a result, it ends with one. -/
  ends : returnType ≠ "void" → ∃ front value, body = front ++ [Stmt.result value]

/-- A program is right: no two functions have one name, and each one is right if those functions can be called that are
announced in front of all definitions or defined in front of it. -/
structure Assembly.WellTyped (a : Assembly) : Prop where
  /-- The names differ. -/
  names : ((a.helpers ++ a.tests ++ [a.main]).map a.registry.functionName).Nodup
  /-- The definitions, in the order in which they are written down. -/
  definitions : ∀ before id after, a.helpers ++ a.tests ++ [a.main] = before ++ id :: after →
    ∃ returnType name params body, a.registry.Defines (a.tests ++ before) id returnType name params body

variable {c : Context} {s t u : Scope}

theorem Block.Typed.append {front back : List Stmt} (h : Block.Typed c s front t) (h' : Block.Typed c t back u) :
    Block.Typed c s (front ++ back) u := by
  induction front generalizing s with
  | nil =>
    cases h
    exact h'
  | cons first rest ih =>
    cases h with
    | cons head tail => exact .cons head (ih tail)

/-- Statements that leave the scope as it is can follow each other in any number. -/
theorem Block.Typed.ofForall {b : List Stmt} (h : ∀ x ∈ b, Stmt.Typed c s x s) : Block.Typed c s b s := by
  induction b with
  | nil => exact .nil
  | cons first rest ih =>
    exact .cons (h first List.mem_cons_self) (ih fun x hx => h x (List.mem_cons_of_mem first hx))

/-- A block of one statement. -/
theorem Block.Typed.single {x : Stmt} (h : Stmt.Typed c s x t) : Block.Typed c s [x] t := .cons h .nil

end SeedCorpus
