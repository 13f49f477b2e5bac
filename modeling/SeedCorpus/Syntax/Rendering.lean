/-
  How C is laid out.

  Expressions and places are text within a line.  A statement is one line or a bracketed block of lines, written with an
  `Emitter`, two blanks deeper inside each pair of braces.  In the header of a counting loop the parts stand on one line
  without their semicolons, so the printer of a statement is told where the statement stands (`Position`).
-/
import SeedCorpus.Registry
import SeedCorpus.Emitter

namespace SeedCorpus

/-! ## Expressions and places -/

mutual

/-- The text of an expression. Binary operations always carry their brackets. -/
def Expr.render (r : Registry) : Expr → String
  | .var v => r.variableName v
  | .element base at_ => r.variableName base ++ "[" ++ at_.render r ++ "]"
  | .int value => toString value
  | .literal text => text
  | .binary lhs op rhs => "(" ++ lhs.render r ++ " " ++ r.text op.sign ++ " " ++ rhs.render r ++ ")"
  | .call callee args => r.functionName callee ++ "(" ++ Expr.renderArgs r args ++ ")"

/-- The texts of the arguments of a call, with a comma and a blank between them. -/
def Expr.renderArgs (r : Registry) : List Expr → String
  | [] => ""
  | [e] => e.render r
  | e :: f :: rest => e.render r ++ ", " ++ Expr.renderArgs r (f :: rest)

end

/-- The text of a place. -/
def Place.render (r : Registry) (p : Place) : String := p.toExpr.render r

/-! ## Statements -/

/-- Where a statement stands. -/
inductive Position where
  /-- On lines of its own. -/
  | line
  /-- In the header of a counting loop, after the opening bracket or between semicolons. -/
  | header
deriving DecidableEq, Repr

/-- Puts the text of a simple statement where it stands: with a semicolon on a line of its own, bare in a header. -/
def Emitter.simple (e : Emitter) (position : Position) (text : String) : Emitter :=
  match position with
  | .line => ((e.line "").inline text).inline ";"
  | .header => e.inline text

/-- A line without the semicolons at its end. -/
def withoutSemicolons (line : String) : String :=
  String.ofList (line.toList.reverse.dropWhile (· = ';')).reverse

/-- The text of an assignment, without semicolon. -/
def Stmt.assignText (r : Registry) (target : Place) (op : Option Operation) (value : Expr) : String :=
  target.render r ++ " " ++ (op.map (r.text ·.sign)).getD "" ++ "= " ++ value.render r

/-- The text of what a declaration introduces. -/
def Declarator.render (r : Registry) : Declarator → String
  | .scalar v => r.variableName v
  | .array v => r.variableName v ++ "[]"

/-- The text of a declaration, without semicolon. -/
def Stmt.declareText (r : Registry) (type : ValueType) (declarator : Declarator) (value : Expr) : String :=
  r.spelling type ++ " " ++ declarator.render r ++ " = " ++ value.render r

mutual

/-- Writes a statement. -/
def Stmt.emit (r : Registry) (position : Position) (e : Emitter) : Stmt → Emitter
  | .assign target op value => e.simple position (Stmt.assignText r target op value)
  | .declare type declarator value => e.simple position (Stmt.declareText r type declarator value)
  | .effect value => e.simple position (value.render r)
  | .raw text =>
    match position with
    | .line => e.line text
    | .header => e.inline (withoutSemicolons text)
  | .result value => ((e.line "return ").inline (value.render r)).inline ";"
  | .branch condition body alternative =>
    let e := ((e.line "if (").inline (condition.render r)).inline ") \x7b"
    let e := (emitAll r e.enter body).exit
    match alternative with
    | none => e.line "\x7d"
    | some other => (emitAll r (e.line "\x7d else \x7b").enter other).exit.line "\x7d"
  | .count start condition step body =>
    let e := (start.emit r .header (e.line "for (")).inline "; "
    let e := (e.inline (condition.render r)).inline "; "
    let e := (step.emit r .header e).inline ") \x7b"
    (emitAll r e.enter body).exit.line "\x7d"
  | .loop condition body =>
    let e := ((e.line "while (").inline (condition.render r)).inline ") \x7b"
    (emitAll r e.enter body).exit.line "\x7d"

/-- Writes statements one after the other, at the depth of the emitter. -/
def emitAll (r : Registry) (e : Emitter) : List Stmt → Emitter
  | [] => e
  | s :: rest => emitAll r (s.emit r .line e) rest

end

/-- Writes the statements of a block one level deeper. -/
def Block.emit (r : Registry) (e : Emitter) (b : Block) : Emitter := (emitAll r e.enter b).exit

/-! ## Functions -/

/-- The text of a parameter list. -/
def Registry.renderParams (r : Registry) (params : List VarId) : String :=
  ", ".intercalate (params.map fun p =>
    ((r.variableAt? p).map (r.spelling ·.type)).getD "" ++ " " ++ r.variableName p)

/-- The first line of a function, up to the closing bracket of its parameters. -/
def Func.signature (r : Registry) (f : Func) : String :=
  r.spelling f.returnType ++ " " ++ r.text f.name ++ "(" ++ r.renderParams f.params ++ ")"

/-- Writes a function; one without a body has an empty pair of braces. -/
def Func.emit (r : Registry) (e : Emitter) (f : Func) : Emitter :=
  (Block.emit r ((e.line (f.signature r)).inline " \x7b") (f.body.getD [])).line "\x7d"

/-- Writes the announcement of a function. -/
def Func.emitPrototype (r : Registry) (e : Emitter) (f : Func) : Emitter := (e.line (f.signature r)).inline ";"

/-! ## Texts of their own -/

/-- The text of a statement on its own. -/
def Stmt.render (r : Registry) (s : Stmt) : String := (s.emit r .line {}).text

/-- The text of a block on its own, one level deep. -/
def Block.render (r : Registry) (b : Block) : String := (Block.emit r {} b).text

/-- The text of a function on its own. -/
def Func.render (r : Registry) (f : Func) : String := (f.emit r {}).text

/-- The text of a function's announcement on its own. -/
def Func.renderPrototype (r : Registry) (f : Func) : String := (f.emitPrototype r {}).text

end SeedCorpus
