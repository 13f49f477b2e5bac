/-
  The text of programs, from the numbers that were drawn.

  What an idiom looks like in writing is its `Wording`.  With it the lines of a move (`Move.lines`), of a function
  (`Wording.definition`) and of a whole program (`Sketch.sections`) can be given without any registry; that the
  statements of the idiom have these lines, with the names that a registry knows, is `Move.lines_eq` and its kin.  A program
  made in an idiom is the text of a sketch (`MadeIn.sections_eq`).
-/
import SeedCorpus.Proofs.Rendering.Lines
import SeedCorpus.Proofs.Synthesis.Moves

namespace SeedCorpus

/-! ## Wordings

A wording gives texts and has no tree behind it.  The names of variables are written out in it, as they stand in a program. -/

/-- The points in which the texts of programs differ by the way in which they are made. -/
structure Wording where
  /-- The parameters of the generated functions. -/
  params : String
  /-- The arguments of a call, from the first one. -/
  args : String → String
  /-- The variable that conditioned loops look at. -/
  guard : String
  /-- The value read from a place. -/
  value : Nat → String
  /-- The line that stores the value of a call in a place. -/
  store : Nat → String → String
  /-- The lines of `main` in front of the calls, from random values. -/
  prelude : List Nat → List String
  /-- The functions of fixed content. -/
  helpers : List (List Line)

/-- Programs whose functions share an array. -/
def arrayWording : Wording where
  params := "int arg, int* arr"
  args first := first ++ ", arr"
  guard := "arg"
  value place := "arr[" ++ toString place ++ "]"
  store place call := "arr[" ++ toString place ++ "] += " ++ call ++ ";"
  prelude values := ["int arr[] = \x7b" ++ ", ".intercalate (values.map toString) ++ "\x7d;"]
  helpers := []

namespace FileBacked

/-- The lines of the helper that reads. -/
def readerText : List Line :=
  [(0, "int read_input(const char* path) \x7b"),
    (1, "FILE* f = fopen(path, \x22r\x22);"),
    (1, "if (f == NULL) \x7b"),
    (2, "return 0;"),
    (1, "\x7d"),
    (1, "int total = 0;"),
    (1, "int value = 0;"),
    (1, "while (fscanf(f, \x22%d\x22, &value) == 1) \x7b"),
    (2, "total += value;"),
    (1, "\x7d"),
    (1, "fclose(f);"),
    (1, "return total;"),
    (0, "\x7d")]

/-- The lines of the helper that writes. -/
def writerText : List Line :=
  [(0, "void write_output(const char* path, int value) \x7b"),
    (1, "FILE* f = fopen(path, \x22a\x22);"),
    (1, "if (f == NULL) \x7b"),
    (2, "return;"),
    (1, "\x7d"),
    (1, "fprintf(f, \x22%d\\n\x22, value);"),
    (1, "fclose(f);"),
    (0, "\x7d")]

end FileBacked

/-- Programs that read and write files. -/
def fileWording : Wording where
  params := "int arg"
  args first := first
  guard := "sum"
  value place := "read_input(\x22" ++ toString place ++ "\x22)"
  store place call := "write_output(\x22out_" ++ toString place ++ "\x22, " ++ call ++ ");"
  prelude _ := []
  helpers := [FileBacked.readerText, FileBacked.writerText]

namespace Wording

/-- The call of a generated function. -/
def call (w : Wording) (callee : Nat) (first : String) : String := testName callee ++ "(" ++ w.args first ++ ")"

end Wording

/-- The lines of a move. -/
def Move.lines (w : Wording) : Move → List Line
  | .guardedCall callee => blockOf "if ((arg > 0)) \x7b" [(0, "sum = " ++ w.call callee "(arg - 1)" ++ ";")]
  | .countedLoop callee =>
    blockOf "for (int i = 1; (sum > i); i += 1) \x7b" [(0, "sum += " ++ w.call callee "(arg - i)" ++ ";")]
  | .conditionedLoop callee =>
    blockOf ("while ((" ++ w.guard ++ " > 0)) \x7b") [(0, "sum += " ++ w.call callee "(arg - 1)" ++ ";")]
  | .read place => [(0, "sum += " ++ w.value place ++ ";")]
  | .write place callee => blockOf "if ((arg > 0)) \x7b" [(0, w.store place (w.call callee "(arg / 2)"))]

namespace Wording

/-- The first line of the function of a number, up to the closing bracket. -/
def signature (w : Wording) (number : Nat) : String := "int " ++ testName number ++ "(" ++ w.params ++ ")"

/-- The lines in the body of the function of a number. -/
def bodyLines (w : Wording) (number : Nat) (moves : List Move) : List Line :=
  [(0, traceLine number "arg"), (0, "fflush(stdout);"), (0, "int sum = 0;")] ++ moves.flatMap (Move.lines w)
    ++ [(0, "return sum;")]

/-- The lines of the function of a number. -/
def definition (w : Wording) (number : Nat) (moves : List Move) : List Line :=
  blockOf (w.signature number ++ " \x7b") (w.bodyLines number moves)

/-- The line of a start. -/
def startLine (w : Wording) (number callee : Nat) : String := "sum += " ++ w.call callee (toString number) ++ ";"

/-- The lines of `main`. -/
def main (w : Wording) (values : List Nat) (starts : List (Nat × Nat)) : List Line :=
  blockOf "int main() \x7b" ((0, "int sum = 0;") :: (w.prelude values).map (fun s => (0, s))
    ++ starts.map (fun s => (0, w.startLine s.1 s.2)) ++ [(0, "return sum;")])

end Wording

/-! ## Wordings of idioms

`Idiom.WordedAs` is all that has to be shown of an idiom to know the text of every program in it. -/

/-- What an idiom says comes out in a wording, with the names that a registry knows. -/
structure Idiom.WordedAs (i : Idiom) (w : Wording) (r : Registry) : Prop where
  /-- The parameters. -/
  params : r.renderParams i.params = w.params
  /-- The arguments of a call. -/
  args : ∀ first, Expr.renderArgs r (i.args first) = w.args (first.render r)
  /-- The variable of the condition. -/
  guard : r.variableName i.guard = w.guard
  /-- A value that is read. -/
  value : ∀ place, (i.value place).render r = w.value place
  /-- A value that is stored. -/
  store : ∀ place call, (i.store place call).isHeaded ∧
    (i.store place call).lines r = [(0, w.store place (call.render r))]
  /-- The statements of `main` in front of the calls. -/
  prelude : ∀ values, allHeaded (i.prelude values) ∧
    blockLines r (i.prelude values) = (w.prelude values).map fun s => (0, s)
  /-- The functions of fixed content. -/
  helpers : (∀ h ∈ i.helpers, allHeaded h.body) ∧ i.helpers.map (fun h =>
    blockOf (h.returnType ++ " " ++ h.name ++ "(" ++ r.renderParams h.params ++ ") \x7b") (blockLines r h.body)) = w.helpers

/-- The names and signs that all moves refer to. -/
structure SaysRoles (r : Registry) : Prop where
  /-- The argument. -/
  arg : r.variableName argVar = "arg"
  /-- The total. -/
  sum : r.variableName sumVar = "sum"
  /-- The counter. -/
  counter : r.variableName counterVar = "i"
  /-- The type. -/
  int : r.spelling intType = "int"
  /-- Addition. -/
  plus : r.text cOperators.plus.sign = "+"
  /-- Subtraction. -/
  minus : r.text cOperators.minus.sign = "-"
  /-- Division. -/
  div : r.text cOperators.div.sign = "/"
  /-- Comparison. -/
  gt : r.text cOperators.gt.sign = ">"

variable {r : Registry} {i : Idiom} {w : Wording} {size : Nat}

/-- Where the names of an idiom are declared, the roles have the names that moves refer to. -/
theorem Ground.saysRoles (hr : Ground r i size) (hi : i.NamesRoles) : SaysRoles r where
  arg := (hr.has_arg hi).variableName
  sum := (hr.has_sum hi).variableName
  counter := (hr.has_counter hi).variableName
  int := SymbolTable.text_of_text? (hr.base.texts _ _ rfl)
  plus := SymbolTable.text_of_text? (hr.base.texts _ _ rfl)
  minus := SymbolTable.text_of_text? (hr.base.texts _ _ rfl)
  div := SymbolTable.text_of_text? (hr.base.texts _ _ rfl)
  gt := SymbolTable.text_of_text? (hr.base.texts _ _ rfl)

/-! ## The lines of moves and bodies

Conditions and arguments are rendered first, then statements, then bodies. -/

attribute [local simp] Expr.render Stmt.lines blockLines

/-- A call is worded with the first argument as that is rendered. -/
theorem Idiom.render_call (hr : Ground r i size) (hw : i.WordedAs w r) {callee : Nat} (hc : callee < size) (first : Expr) :
    (i.call callee first).render r = w.call callee (first.render r) := by
  rw [Idiom.call, Expr.render, (hr.tests callee hc).functionName, hw.args, Wording.call]

/-- The condition that a variable is positive. -/
theorem render_isPositive (hs : SaysRoles r) (v : VarId) :
    (isPositive v).render r = "(" ++ r.variableName v ++ " > 0)" := by
  simp only [isPositive, Expr.render, hs.gt, String.append_assoc]
  rfl

/-- The condition that the argument is positive. -/
theorem render_argPositive (hs : SaysRoles r) : (isPositive argVar).render r = "(arg > 0)" := by
  rw [render_isPositive hs, hs.arg]
  rfl

/-- The argument of a call one level deeper. -/
theorem render_argLess (hs : SaysRoles r) :
    (Expr.binary (.var argVar) cOperators.minus (.int 1)).render r = "(arg - 1)" := by
  simp only [Expr.render, hs.arg, hs.minus]
  rfl

/-- The argument of a call in a counting loop. -/
theorem render_argLessCounter (hs : SaysRoles r) :
    (Expr.binary (.var argVar) cOperators.minus (.var counterVar)).render r = "(arg - i)" := by
  simp only [Expr.render, hs.arg, hs.minus, hs.counter]
  rfl

/-- The argument of a call whose value is stored. -/
theorem render_argHalf (hs : SaysRoles r) :
    (Expr.binary (.var argVar) cOperators.div (.int 2)).render r = "(arg / 2)" := by
  simp only [Expr.render, hs.arg, hs.div]
  rfl

/-- An expression is added to the total. -/
theorem lines_addToSum (hs : SaysRoles r) (e : Expr) :
    (Stmt.update sumVar cOperators.plus e).lines r = [(0, "sum += " ++ e.render r ++ ";")] := by
  simp only [Stmt.update, Stmt.lines, Stmt.assignText, Place.render, Place.toExpr, Expr.render, hs.sum, Option.map_some,
    hs.plus, Option.getD_some]
  rfl

/-- In the headers of moves stand simple statements. -/
theorem Move.isHeaded (hw : i.WordedAs w r) (m : Move) : (m.stmt i).isHeaded := by
  cases m with
  | write place callee => simp [Move.stmt, Stmt.whenever, Stmt.isHeaded, allHeaded, (hw.store place _).1]
  | _ => rfl

/-- A move has the lines that its numbers give it. -/
theorem Move.lines_eq (hr : Ground r i size) (hs : SaysRoles r) (hw : i.WordedAs w r) {m : Move}
    (hm : m.Fits size i.places) : (m.stmt i).lines r = m.lines w := by
  -- one case for each kind of move: its conditions, its header and its line are rendered, and what remains computes
  cases m with
  | guardedCall callee =>
    have hset : ∀ e, (Stmt.set sumVar e).lines r = [(0, "sum = " ++ e.render r ++ ";")] := fun e => by
      simp only [Stmt.set, Stmt.lines, Stmt.assignText, Place.render, Place.toExpr, Expr.render, hs.sum]
      rfl
    simp only [Move.stmt, Stmt.whenever, Stmt.lines, blockLines, hset, Idiom.render_call hr hw hm, render_argPositive hs,
      render_argLess hs, Move.lines]
    rfl
  | countedLoop callee =>
    have hstart : (Stmt.scalar intType counterVar (.int 1)).headerText r = "int i = 1" := by
      simp only [Stmt.scalar, Stmt.headerText, Stmt.declareText, Declarator.render, hs.int, hs.counter]
      rfl
    have hcondition : (Expr.binary (.var sumVar) cOperators.gt (.var counterVar)).render r = "(sum > i)" := by
      simp only [Expr.render, hs.sum, hs.gt, hs.counter]
      rfl
    have hstep : (Stmt.update counterVar cOperators.plus (.int 1)).headerText r = "i += 1" := by
      simp only [Stmt.update, Stmt.headerText, Stmt.assignText, Place.render, Place.toExpr, Expr.render, hs.counter,
        Option.map_some, hs.plus, Option.getD_some]
      rfl
    simp only [Move.stmt, Stmt.lines, blockLines, hstart, hcondition, hstep, lines_addToSum hs,
      Idiom.render_call hr hw hm, render_argLessCounter hs, Move.lines]
    rfl
  | conditionedLoop callee =>
    simp only [Move.stmt, Stmt.lines, blockLines, render_isPositive hs, hw.guard, lines_addToSum hs,
      Idiom.render_call hr hw hm, render_argLess hs, Move.lines]
    simp only [List.append_nil, String.append_assoc]
    rfl
  | read place => simp only [Move.stmt, lines_addToSum hs, hw.value, Move.lines]
  | write place callee =>
    simp only [Move.stmt, Stmt.whenever, Stmt.lines, blockLines, render_argPositive hs, (hw.store place _).2,
      Idiom.render_call hr hw hm.2, render_argHalf hs, Move.lines]
    rfl

/-- The lines of two blocks in a row are the lines of both. -/
theorem blockLines_append (r : Registry) (a b : Block) : blockLines r (a ++ b) = blockLines r a ++ blockLines r b := by
  induction a with
  | nil => rfl
  | cons s a ih => rw [List.cons_append, blockLines, ih, blockLines, List.append_assoc]

/-- A block is headed if each statement in it is. -/
theorem allHeaded_iff {b : Block} : allHeaded b ↔ ∀ s ∈ b, s.isHeaded := by
  induction b with
  | nil => simp [allHeaded]
  | cons s b ih => simp [allHeaded, ih]

theorem lines_sumDeclared (hs : SaysRoles r) : (Stmt.scalar intType sumVar (.int 0)).lines r = [(0, "int sum = 0;")] := by
  simp only [Stmt.scalar, Stmt.lines, Stmt.declareText, Declarator.render, hs.int, hs.sum]
  rfl

theorem lines_sumReturned (hs : SaysRoles r) : (Stmt.result (.var sumVar)).lines r = [(0, "return sum;")] := by
  simp only [Stmt.lines, Expr.render, hs.sum]
  rfl

/-- The lines of a body. -/
theorem Idiom.blockLines_body (hr : Ground r i size) (hs : SaysRoles r) (hw : i.WordedAs w r) (number : Nat)
    {moves : List Move} (hm : ∀ m ∈ moves, m.Fits size i.places) :
    allHeaded (i.body number moves) ∧ blockLines r (i.body number moves) = w.bodyLines number moves := by
  have hmoves : blockLines r (moves.map (Move.stmt i)) = moves.flatMap (Move.lines w) := by
    induction moves with
    | nil => rfl
    | cons m moves ih =>
      rw [List.map_cons, blockLines, Move.lines_eq hr hs hw (hm m List.mem_cons_self),
        ih fun m' hm' => hm m' (List.mem_cons_of_mem m hm'), List.flatMap_cons]
  -- the headers, then the lines
  refine ⟨allHeaded_iff.mpr fun s hmem => ?_, ?_⟩
  · simp only [Idiom.body, List.mem_append, List.mem_cons, List.mem_map, List.not_mem_nil, or_false] at hmem
    rcases hmem with ((rfl | rfl | rfl) | ⟨m, -, rfl⟩) | rfl
    · rfl
    · rfl
    · rfl
    · exact Move.isHeaded hw m
    · rfl
  · have hraw : ∀ text, (Stmt.raw text).lines r = [(0, text)] := fun _ => rfl
    rw [Idiom.body, blockLines_append, blockLines_append, hmoves]
    simp only [blockLines, lines_sumDeclared hs, lines_sumReturned hs, hraw, List.append_nil]
    rfl

/-- The lines in the body of `main`. -/
theorem Idiom.blockLines_mainBody (hr : Ground r i size) (hs : SaysRoles r) (hw : i.WordedAs w r) (values : List Nat)
    {starts : List (Nat × Nat)} (hst : ∀ s ∈ starts, s.2 < size) :
    allHeaded (i.mainBody values starts) ∧ blockOf "int main() \x7b" (blockLines r (i.mainBody values starts))
      = w.main values starts := by
  have hstarts : blockLines r (starts.map fun s => i.start s.1 s.2) = starts.map fun s => (0, w.startLine s.1 s.2) := by
    induction starts with
    | nil => rfl
    | cons s starts ih =>
      rw [List.map_cons, blockLines, ih fun s' hs' => hst s' (List.mem_cons_of_mem s hs'), Idiom.start, lines_addToSum hs,
        Idiom.render_call hr hw (hst s List.mem_cons_self)]
      rfl
  refine ⟨allHeaded_iff.mpr fun s hmem => ?_, ?_⟩
  · simp only [Idiom.mainBody, List.mem_append, List.mem_cons, List.cons_append, List.mem_map, List.not_mem_nil,
      or_false] at hmem
    rcases hmem with rfl | (hmem | ⟨st, -, rfl⟩) | rfl
    · rfl
    · exact allHeaded_iff.mp (hw.prelude values).1 s hmem
    · rfl
    · rfl
  · rw [Idiom.mainBody, blockLines_append, List.cons_append, blockLines, blockLines_append, hstarts,
      (hw.prelude values).2, lines_sumDeclared hs]
    simp only [blockLines, lines_sumReturned hs, List.append_nil]
    rfl

/-! ## Whole programs

The sections of a program are given by its sketch alone.  What is rendered is the same list, section by section. -/

/-- The text of lines. -/
def textOf (ls : List Line) : String := "\n".intercalate (ls.map (Line.printed 0))

/-- A function that has a body is written down as its lines. -/
theorem renderDefinition_eq {id : FuncId} {returnType name : String} {params : List VarId} {body : Block}
    (ha : r.Announces id returnType name params) (hb : r.bodyOf id = some body) (hh : allHeaded body) :
    renderDefinition r id = .ok (textOf
      (blockOf (returnType ++ " " ++ name ++ "(" ++ r.renderParams params ++ ") \x7b") (blockLines r body))) := by
  obtain ⟨f, hf, htype, hname, rfl⟩ := ha
  rw [Registry.bodyOf, hf, Option.bind_some] at hb
  have hsignature : f.signature r = returnType ++ " " ++ name ++ "(" ++ r.renderParams f.params ++ ")" := by
    rw [Func.signature, Registry.spelling, Registry.text, Registry.text, SymbolTable.text_of_text? htype,
      SymbolTable.text_of_text? hname]
  have hopen : returnType ++ " " ++ name ++ "(" ++ r.renderParams f.params ++ ")" ++ " \x7b"
      = returnType ++ " " ++ name ++ "(" ++ r.renderParams f.params ++ ") \x7b" := by
    simp [String.append_assoc]
  rw [renderDefinition, hf]
  dsimp only
  rw [if_pos (by rw [hb]; rfl), Func.render_eq r f (by rw [hb]; exact hh), Func.lines, hb, hsignature, hopen]
  rfl

/-- A function is announced by its first line and a semicolon. -/
theorem renderPrototype_eq {id : FuncId} {returnType name : String} {params : List VarId}
    (ha : r.Announces id returnType name params) : ((r.functionAt? id).map (Func.renderPrototype r)).getD ""
      = returnType ++ " " ++ name ++ "(" ++ r.renderParams params ++ ");" := by
  obtain ⟨f, hf, htype, hname, rfl⟩ := ha
  have hsignature : f.signature r = returnType ++ " " ++ name ++ "(" ++ r.renderParams f.params ++ ")" := by
    rw [Func.signature, Registry.spelling, Registry.text, Registry.text, SymbolTable.text_of_text? htype,
      SymbolTable.text_of_text? hname]
  rw [hf]
  simp [Func.renderPrototype, Func.emitPrototype, Emitter.line, Emitter.inline, Emitter.indentation, hsignature,
    String.append_assoc]

namespace Sketch

/-- The announcements of a program. -/
def prototypes (w : Wording) (size : Nat) : List (List Line) :=
  (List.range size).map fun k => [(0, w.signature k ++ ";")]

/-- The generated functions of a program. -/
def definitions (w : Wording) (s : Sketch) (size : Nat) : List (List Line) :=
  (List.range size).map fun k => w.definition k (s.moves k)

/-- The sections of a program. -/
def sections (w : Wording) (s : Sketch) (size : Nat) : List (List Line) :=
  [[(0, "#include <stdio.h>")], [(0, "#include <stdlib.h>")]] ++ prototypes w size ++ w.helpers
    ++ s.definitions w size ++ [w.main s.values s.starts]

end Sketch

/-- What succeeds on each element succeeds on a list. -/
theorem mapM_ok {α β ε : Type} {f : α → Except ε β} {g : α → β} {l : List α} (h : ∀ a ∈ l, f a = .ok (g a)) :
    l.mapM f = .ok (l.map g) := by
  induction l with
  | nil => rfl
  | cons a l ih =>
    rw [List.mapM_cons, h a List.mem_cons_self, ih fun b hb => h b (List.mem_cons_of_mem a hb)]
    rfl

namespace Assembly.MadeFrom

variable {a : Assembly} {budget : Nat} {s : Sketch}

/-- A generated function is written down with its moves. -/
theorem definition_eq (h : a.MadeFrom i size budget s) (hi : i.NamesRoles) (hw : i.WordedAs w a.registry) {k : Nat}
    (hk : k < size) : renderDefinition a.registry ⟨k⟩ = .ok (textOf (w.definition k (s.moves k))) := by
  obtain ⟨hheaded, hlines⟩ := i.blockLines_body h.ground (h.ground.saysRoles hi) hw k (h.fits.moves k hk).2
  rw [renderDefinition_eq (h.ground.tests k hk) (h.bodies k hk) hheaded, hlines, hw.params, Wording.definition,
    Wording.signature]
  simp [String.append_assoc]

/-- `main` is written down with its values and starts. -/
theorem main_eq (h : a.MadeFrom i size budget s) (hi : i.NamesRoles) (hw : i.WordedAs w a.registry) :
    renderDefinition a.registry a.main = .ok (textOf (w.main s.values s.starts)) := by
  obtain ⟨hheaded, hlines⟩ := i.blockLines_mainBody h.ground (h.ground.saysRoles hi) hw s.values h.fits.starts.2
  rw [renderDefinition_eq h.main h.mainBody hheaded, ← hlines]
  rfl

/-- A function of fixed content is written down as it is worded. -/
theorem helper_eq (h : a.MadeFrom i size budget s) (hw : i.WordedAs w a.registry) {x : Helper} (hx : x ∈ i.helpers) :
    renderDefinition a.registry x.id = .ok (textOf (blockOf (x.returnType ++ " " ++ x.name ++ "("
      ++ a.registry.renderParams x.params ++ ") \x7b") (blockLines a.registry x.body))) :=
  renderDefinition_eq (h.ground.helpers x hx) (h.helperBodies x hx) (hw.helpers.1 x hx)

/-- An announcement is written down as it is worded. -/
theorem prototype_eq (h : a.MadeFrom i size budget s) (hw : i.WordedAs w a.registry) {k : Nat} (hk : k < size) :
    ((a.registry.functionAt? ⟨k⟩).map (Func.renderPrototype a.registry)).getD "" = textOf [(0, w.signature k ++ ";")] := by
  rw [renderPrototype_eq (h.ground.tests k hk), hw.params]
  simp [textOf, Line.printed, Wording.signature, String.append_assoc]

/-- A program made from a sketch has its sections. -/
theorem sections_eq (h : a.MadeFrom i size budget s) (hi : i.NamesRoles) (hw : i.WordedAs w a.registry) :
    sections a.registry a.tests a.helpers a.main = .ok ((s.sections w size).map textOf) := by
  have hhelpers : a.helpers.mapM (renderDefinition a.registry) = .ok (w.helpers.map textOf) := by
    rw [h.helpers, ← hw.helpers.2, List.map_map, List.mapM_map]
    exact mapM_ok fun x hx => h.helper_eq hw hx
  have htests : a.tests.mapM (renderDefinition a.registry)
      = .ok ((List.range size).map fun k => textOf (w.definition k (s.moves k))) := by
    rw [h.tests, testIds, List.mapM_map]
    exact mapM_ok fun k hk => h.definition_eq hi hw (List.mem_range.mp hk)
  have hprototypes : a.tests.map (fun id => ((a.registry.functionAt? id).map (Func.renderPrototype a.registry)).getD "")
      = (Sketch.prototypes w size).map textOf := by
    rw [h.tests, testIds, List.map_map, Sketch.prototypes, List.map_map]
    exact List.map_congr_left fun k hk => h.prototype_eq hw (List.mem_range.mp hk)
  have hall : (a.helpers ++ a.tests ++ [a.main]).mapM (renderDefinition a.registry)
      = .ok (w.helpers.map textOf ++ ((List.range size).map fun k => textOf (w.definition k (s.moves k)))
        ++ [textOf (w.main s.values s.starts)]) := by
    rw [List.mapM_append, List.mapM_append, hhelpers, htests, List.mapM_cons, h.main_eq hi hw]
    rfl
  unfold sections
  rw [hall, hprototypes]
  show Except.ok _ = Except.ok _
  simp [Sketch.sections, Sketch.definitions, includes, textOf, Line.printed]

end Assembly.MadeFrom

/-- A program made in an idiom has the sections of a sketch that fits. -/
theorem Assembly.MadeIn.sections_eq {a : Assembly} {budget : Nat} (h : a.MadeIn i size budget) (hi : i.NamesRoles)
    (hw : i.WordedAs w a.registry) : ∃ s : Sketch, s.Fits size i.places budget ∧
      sections a.registry a.tests a.helpers a.main = .ok ((s.sections w size).map textOf) := by
  obtain ⟨s, hs⟩ := Assembly.madeIn_iff.mp h
  exact ⟨s, hs.fits, hs.sections_eq hi hw⟩

end SeedCorpus
