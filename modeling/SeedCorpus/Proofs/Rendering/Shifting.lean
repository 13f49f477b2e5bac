/-
  Rendering behind other text.

  A tree is rendered on its own into an empty emitter at depth 0, and as part of a larger text into an emitter that has
  written something and stands at some depth `k`.  The two runs take different branches, since the first line of a text needs
  no newline before it.  Still the second run writes what the first one does, on a new line and with `2 * k` blanks more in
  front of every line (`shifted`).

  1. A shifted text can be continued, and a new line can be put below it (`shifted_append`, `shifted_newLine`).
  2. An emitter follows another (`Emitter.Follows`) if it has written, behind other text, the shifted text of the other.  Until
     the other has written anything, it is only ready to (`Emitter.Ready`): that is the one place where the runs differ, and
     the next line brings them together (`Ready.line`).
  3. A statement makes an emitter that is ready follow, on a line of its own and in the header of a loop
     (`Stmt.emit_follows`), and so rendering depends on its surroundings by its indentation only (`emit_shifted`).

  Expressions are put together here piece by piece (`Expr.emit`); their text does not depend on what is around them at all.
-/
import SeedCorpus.Proofs.Rendering.Indentation

namespace SeedCorpus

open SeedCorpus.Emitter (indentation)

/-! ## Texts without line ends

A line end inside of a name or of a raw line would be printed as it is, without any blanks behind it, and its second half
would stand where it stands in the text on its own.  So a text is shifted by putting blanks in front of its lines only if the
pieces that it is built from are lines. -/

/-- No line ends in a text. -/
def OneLine (s : String) : Prop := '\n' ∉ s.toList

instance (s : String) : Decidable (OneLine s) := inferInstanceAs (Decidable ('\n' ∉ s.toList))

section OneLine

variable {s t : String}

/-- Texts without line ends are put together to one. -/
theorem OneLine.append (hs : OneLine s) (ht : OneLine t) : OneLine (s ++ t) := by
  rw [OneLine, String.toList_append, List.mem_append]
  exact not_or.mpr ⟨hs, ht⟩

theorem OneLine.intercalate (hs : OneLine s) {ls : List String} (h : ∀ t ∈ ls, OneLine t) : OneLine (s.intercalate ls) :=
  intercalate_induction (by decide) OneLine.append hs h

/-- What is left of a text when semicolons are cut off at its end holds no line end that was not in it. -/
theorem OneLine.withoutSemicolons (h : OneLine s) : OneLine (withoutSemicolons s) := by
  rw [OneLine, SeedCorpus.withoutSemicolons, String.toList_ofList, List.mem_reverse]
  exact fun hm => h (List.mem_reverse.mp ((List.dropWhile_sublist _).subset hm))

theorem oneLine_indentation (k : Nat) : OneLine (indentation k) := by
  rw [OneLine, indentation, String.toList_ofList]
  exact fun hm => absurd (List.eq_of_mem_replicate hm) (by decide)

end OneLine

/-! ## Shifted texts

Shifting is defined by lines, and an emitter writes in pieces.  Two equations bring these together: one for a piece that
continues the last line, and one for a piece on a new line. -/

/-- A text with `2 * k` blanks in front of each of its lines. -/
def shifted (k : Nat) (text : String) : String :=
  "\n".intercalate ((linesOf text).map (String.ofList (List.replicate (2 * k) ' ') ++ ·))

/-- The blanks are those that an emitter puts in front of a line at a depth. -/
theorem shifted_eq (k : Nat) (text : String) : shifted k text = "\n".intercalate ((linesOf text).map (indentation k ++ ·)) :=
  rfl

section Shifted

variable {s t : String}

theorem linesOf_ne_nil (t : String) : linesOf t ≠ [] := by
  simp [linesOf, List.splitOn_ne_nil]

/-- A text that is one line is shifted by blanks in front of it. -/
theorem shifted_of_oneLine (k : Nat) (hs : OneLine s) : shifted k s = indentation k ++ s := by
  rw [shifted_eq, linesOf, List.splitOn_eq_singleton hs]
  simp

/-- What continues the last line continues it in the shifted text. -/
theorem shifted_append (k : Nat) (t : String) (hs : OneLine s) : shifted k (t ++ s) = shifted k t ++ s := by
  obtain ⟨front, last, hlines⟩ := (List.eq_nil_or_concat (linesOf t)).resolve_left (linesOf_ne_nil t)
  rw [List.concat_eq_append] at hlines
  rw [shifted_eq, shifted_eq, hlines, linesOf_append hs hlines]
  -- the last line is the only one, or there are others in front that stay as they are
  cases front with
  | nil => simp [String.append_assoc]
  | cons f front =>
    have hne : ((f :: front).map (indentation k ++ ·)) ≠ [] := List.cons_ne_nil _ _
    rw [List.map_append, List.map_append, String.intercalate_append_of_ne_nil hne (by simp),
      String.intercalate_append_of_ne_nil hne (by simp)]
    simp [String.append_assoc]

/-- A new line is shifted like the others. -/
theorem shifted_newLine (k : Nat) (t : String) (hs : OneLine s) :
    shifted k (t ++ "\n" ++ s) = shifted k t ++ "\n" ++ (indentation k ++ s) := by
  have hne : (linesOf t).map (indentation k ++ ·) ≠ [] := fun he => linesOf_ne_nil t (List.map_eq_nil_iff.mp he)
  rw [shifted_eq, linesOf_nextLine hs, List.map_append, String.intercalate_append_of_ne_nil hne (by simp)]
  simp [shifted_eq]

example : shifted 1 "int main() \x7b\n  return 0;\n\x7d" = "  int main() \x7b\n    return 0;\n  \x7d" := by decide

theorem indentation_add (k d : Nat) : indentation (k + d) = indentation k ++ indentation d := by
  apply String.toList_injective
  simp only [indentation, String.toList_append, String.toList_ofList, List.replicate_append_replicate, Nat.mul_add]

end Shifted

/-! ## Emitters behind others

`Follows` is the invariant that statements keep.  `Ready` is weaker by the one state in which the emitter on its own has
written nothing. -/

namespace Emitter

/-- The emitter `e` has written, on a new line behind `o`, what `a` has written on its own, shifted by `k` levels. -/
structure Follows (k : Nat) (o : String) (a e : Emitter) : Prop where
  /-- It stands deeper. -/
  depth : e.depth = k + a.depth
  /-- Its text is that behind which it writes, and the shifted text. -/
  text : e.text = o ++ "\n" ++ shifted k a.text

/-- The emitter `e` follows `a`, unless neither has written anything yet. -/
structure Ready (k : Nat) (o : String) (a e : Emitter) : Prop where
  /-- It stands deeper. -/
  depth : e.depth = k + a.depth
  /-- It has written nothing, or it follows. -/
  text : e.text = if a.text = "" then o else o ++ "\n" ++ shifted k a.text

variable {k : Nat} {o s : String} {a e : Emitter}

/-- An emitter that has written nothing is followed by any emitter at the right depth, whatever that has written. -/
theorem Ready.start (k : Nat) (o : String) (depth : Nat) : Ready k o { depth } { depth := k + depth, text := o } := ⟨rfl, rfl⟩

theorem Follows.ready (h : Follows k o a e) (hne : a.text ≠ "") : Ready k o a e := ⟨h.depth, by rw [if_neg hne, h.text]⟩

/-- One that is ready follows, as soon as the other has written something. -/
theorem Ready.follows (h : Ready k o a e) (hne : a.text ≠ "") : Follows k o a e :=
  ⟨h.depth, h.text.trans (if_neg hne)⟩

/-- What is put behind the last line keeps the emitters together. -/
theorem Follows.inline (h : Follows k o a e) (hs : OneLine s) : Follows k o (a.inline s) (e.inline s) := by
  refine ⟨h.depth, ?_⟩
  show e.text ++ s = o ++ "\n" ++ shifted k (a.text ++ s)
  rw [h.text, shifted_append k _ hs]
  simp only [String.append_assoc]

/-- The next line brings the emitters together.  The one on its own may write its first line here, without a line end in
front; the other one always has something to end. -/
theorem Ready.line (h : Ready k o a e) (ho : o ≠ "") (hs : OneLine s) : Follows k o (a.line s) (e.line s) := by
  have hpiece : OneLine (indentation a.depth ++ s) := (oneLine_indentation _).append hs
  have htext : e.text ≠ "" := by
    rw [h.text]
    split
    · exact ho
    · intro he
      exact ho (String.append_eq_empty_iff.mp (String.append_eq_empty_iff.mp he).1).1
  have hline : (e.line s).text = e.text ++ "\n" ++ (indentation k ++ (indentation a.depth ++ s)) := by
    have hempty : e.text.isEmpty = false := String.isEmpty_eq_false_iff.mpr htext
    simp [Emitter.line, hempty, h.depth, indentation_add, String.append_assoc]
  refine ⟨h.depth, ?_⟩
  rw [hline, h.text]
  -- whether it is the first line of the emitter on its own
  by_cases ha : a.text = ""
  · have hfirst : (a.line s).text = indentation a.depth ++ s := by simp [Emitter.line, ha]
    rw [if_pos ha, hfirst, shifted_of_oneLine k hpiece]
  · have hnext : (a.line s).text = a.text ++ "\n" ++ (indentation a.depth ++ s) := by
      have hempty : a.text.isEmpty = false := String.isEmpty_eq_false_iff.mpr ha
      simp [Emitter.line, hempty, String.append_assoc]
    rw [if_neg ha, hnext, shifted_newLine k _ hpiece]
    simp only [String.append_assoc]

theorem Ready.enter (h : Ready k o a e) : Ready k o a.enter e.enter := ⟨congrArg (· + 1) h.depth, h.text⟩

/-- Both come back.  Depths do not go below 0, so the emitter on its own has to be in a block, or the other one would come
back further than it does. -/
theorem Ready.exit (h : Ready k o a e) (hd : a.depth ≠ 0) : Ready k o a.exit e.exit := by
  refine ⟨?_, h.text⟩
  show e.depth - 1 = k + (a.depth - 1)
  rw [h.depth]
  omega

/-! ### Something is written -/

/-- Behind a piece that is not empty something is written. -/
theorem inline_text_ne (e : Emitter) (hs : s ≠ "") : (e.inline s).text ≠ "" := fun he =>
  hs (String.append_eq_empty_iff.mp he).2

theorem text_ne_inline (h : e.text ≠ "") (s : String) : (e.inline s).text ≠ "" := fun he =>
  h (String.append_eq_empty_iff.mp he).1

/-- A new line is something, unless it is an empty first line at depth 0. -/
theorem line_text_ne (e : Emitter) (h : e.text ≠ "" ∨ e.depth ≠ 0 ∨ s ≠ "") : (e.line s).text ≠ "" := by
  intro he
  obtain ⟨hfront, hs⟩ := String.append_eq_empty_iff.mp he
  obtain ⟨htext, hblanks⟩ := String.append_eq_empty_iff.mp hfront
  rcases h with hne | hdepth | hne
  · rw [if_neg (by simpa using hne)] at htext
    exact hne (String.append_eq_empty_iff.mp htext).1
  · have hnone : List.replicate (2 * e.depth) ' ' = [] := by simpa [indentation] using hblanks
    have hzero := congrArg List.length hnone
    simp only [List.length_replicate, List.length_nil] at hzero
    omega
  · exact hne hs

end Emitter

open SeedCorpus.Emitter

/-! ## Expressions, piece by piece

An expression is rendered to a text that is put into a line at once.  Writing it in pieces comes to the same. -/

mutual

/-- Writes an expression. -/
def Expr.emit (r : Registry) (e : Emitter) : Expr → Emitter
  | .var v => e.inline (r.variableName v)
  | .element base at_ => (at_.emit r ((e.inline (r.variableName base)).inline "[")).inline "]"
  | .int value => e.inline (toString value)
  | .literal text => e.inline text
  | .binary lhs op rhs =>
    let e := (lhs.emit r (e.inline "(")).inline " "
    (rhs.emit r ((e.inline (r.text op.sign)).inline " ")).inline ")"
  | .call callee args => (Expr.emitArgs r ((e.inline (r.functionName callee)).inline "(") args).inline ")"

/-- Writes the arguments of a call. -/
def Expr.emitArgs (r : Registry) (e : Emitter) : List Expr → Emitter
  | [] => e
  | [x] => x.emit r e
  | x :: y :: rest => Expr.emitArgs r ((x.emit r e).inline ", ") (y :: rest)

end

/-- Writes a place. -/
def Place.emit (r : Registry) (e : Emitter) (p : Place) : Emitter := p.toExpr.emit r e

theorem Emitter.inline_empty (e : Emitter) : e.inline "" = e := by
  simp [inline]

mutual

/-- An expression is put behind what is written, as it is rendered. -/
theorem Expr.emit_eq (r : Registry) : ∀ (x : Expr) (e : Emitter), x.emit r e = e.inline (x.render r)
  | .var v, e => by rw [Expr.emit, Expr.render]
  | .element base at_, e => by
    rw [Expr.emit, Expr.render, Expr.emit_eq r at_]
    simp only [inline_inline, String.append_assoc]
  | .int value, e => by rw [Expr.emit, Expr.render]
  | .literal text, e => by rw [Expr.emit, Expr.render]
  | .binary lhs op rhs, e => by
    rw [Expr.emit, Expr.render, Expr.emit_eq r lhs, Expr.emit_eq r rhs]
    simp only [inline_inline, String.append_assoc]
  | .call callee args, e => by
    rw [Expr.emit, Expr.render, Expr.emitArgs_eq r args]
    simp only [inline_inline, String.append_assoc]

/-- And so are the arguments of a call. -/
theorem Expr.emitArgs_eq (r : Registry) : ∀ (args : List Expr) (e : Emitter),
    Expr.emitArgs r e args = e.inline (Expr.renderArgs r args)
  | [], e => by rw [Expr.emitArgs, Expr.renderArgs, inline_empty]
  | [x], e => by rw [Expr.emitArgs, Expr.renderArgs, Expr.emit_eq r x]
  | x :: y :: rest, e => by
    rw [Expr.emitArgs, Expr.renderArgs, Expr.emit_eq r x, Expr.emitArgs_eq r (y :: rest)]
    simp only [inline_inline, String.append_assoc]

end

/-! ## Trees without line ends

The pieces of a tree are names, spellings and signs, which the registry holds, and literals and raw lines, which the tree
holds.  If no line ends in any of them, none ends in what they are put together to. -/

/-- No line ends in the texts that a registry holds: names, spellings of types and signs of operations. -/
def Registry.OneLineNames (r : Registry) : Prop := ∀ s text, r.symbols.text? s = some text → OneLine text

/-- An expression that is a literal holds no line end. -/
def Expr.IsOneLine : Expr → Prop
  | .literal text => OneLine text
  | _ => True

/-- A statement that is a raw line holds no line end. -/
def Stmt.IsOneLine : Stmt → Prop
  | .raw line => OneLine line
  | _ => True

section OneLineTrees

variable {r : Registry}

/-- The text of a symbol is one line; one that was never given out has the empty text. -/
theorem Registry.OneLineNames.text (hr : r.OneLineNames) (s : Symbol) : OneLine (r.text s) := by
  rw [Registry.text, SymbolTable.text]
  cases hs : r.symbols.text? s with
  | none => exact (by decide : OneLine "")
  | some text => exact hr s text hs

theorem Registry.OneLineNames.variableName (hr : r.OneLineNames) (v : VarId) : OneLine (r.variableName v) := by
  rw [Registry.variableName]
  cases r.variableAt? v with
  | none => exact (by decide : OneLine "")
  | some x => exact hr.text x.name

theorem Registry.OneLineNames.functionName (hr : r.OneLineNames) (f : FuncId) : OneLine (r.functionName f) := by
  rw [Registry.functionName]
  cases r.functionAt? f with
  | none => exact (by decide : OneLine "")
  | some x => exact hr.text x.name

mutual

/-- An expression without line ends is rendered without line ends. -/
theorem Expr.render_oneLine (hr : r.OneLineNames) : ∀ x : Expr, x.All Expr.IsOneLine → OneLine (x.render r)
  | .var v, _ => by
    rw [Expr.render]
    exact hr.variableName v
  | .element base at_, h => by
    have hat := Expr.render_oneLine hr at_ (Expr.all_element.mp h).2
    rw [Expr.render]
    exact (((hr.variableName base).append (by decide)).append hat).append (by decide)
  | .int value, _ => by
    rw [Expr.render]
    exact (Neat.int value).oneLine
  | .literal text, h => by
    rw [Expr.render]
    exact h.self
  | .binary lhs op rhs, h => by
    obtain ⟨-, hlhs, hrhs⟩ := Expr.all_binary.mp h
    have hsign : OneLine (r.text op.sign) := hr.text op.sign
    have hfront : OneLine ("(" ++ lhs.render r) := (by decide : OneLine "(").append (Expr.render_oneLine hr lhs hlhs)
    rw [Expr.render]
    exact (((((hfront.append (by decide)).append hsign).append (by decide)).append
      (Expr.render_oneLine hr rhs hrhs)).append (by decide))
  | .call callee args, h => by
    have hargs := Expr.renderArgs_oneLine hr args (Expr.all_call.mp h).2
    rw [Expr.render]
    exact (((hr.functionName callee).append (by decide)).append hargs).append (by decide)

/-- And so are the arguments of a call. -/
theorem Expr.renderArgs_oneLine (hr : r.OneLineNames) : ∀ args : List Expr, (∀ x ∈ args, x.All Expr.IsOneLine) →
    OneLine (Expr.renderArgs r args)
  | [], _ => (by decide : OneLine "")
  | [x], h => by
    rw [Expr.renderArgs]
    exact Expr.render_oneLine hr x (h x List.mem_cons_self)
  | x :: y :: rest, h => by
    obtain ⟨hx, hrest⟩ := List.forall_mem_cons.mp h
    rw [Expr.renderArgs]
    exact ((Expr.render_oneLine hr x hx).append (by decide)).append (Expr.renderArgs_oneLine hr (y :: rest) hrest)

end

/-- An assignment without line ends is one line. -/
theorem Stmt.assignText_oneLine (hr : r.OneLineNames) {target : Place} {op : Option Operation} {value : Expr}
    (h : (Stmt.assign target op value).MadeOf Expr.IsOneLine Stmt.IsOneLine) :
    OneLine (Stmt.assignText r target op value) := by
  obtain ⟨htarget, hvalue⟩ := h.assign
  have hplace : OneLine (target.render r) := Expr.render_oneLine hr target.toExpr htarget
  have hsign : OneLine ((op.map (r.text ·.sign)).getD "") := by
    cases op with
    | none => exact (by decide : OneLine "")
    | some o => exact hr.text o.sign
  exact (((hplace.append (by decide)).append hsign).append (by decide)).append (Expr.render_oneLine hr value hvalue)

theorem Stmt.declareText_oneLine (hr : r.OneLineNames) {type : ValueType} {declarator : Declarator} {value : Expr}
    (h : (Stmt.declare type declarator value).MadeOf Expr.IsOneLine Stmt.IsOneLine) :
    OneLine (Stmt.declareText r type declarator value) := by
  have hdeclarator : OneLine (declarator.render r) := by
    cases declarator with
    | scalar v => exact hr.variableName v
    | array v => exact (hr.variableName v).append (by decide)
  have htype : OneLine (r.spelling type) := hr.text type.spelling
  exact (((htype.append (by decide)).append hdeclarator).append (by decide)).append (Expr.render_oneLine hr value h.declare)

/-- The first line of a function is one line, whatever its parameters are. -/
theorem Func.signature_oneLine (hr : r.OneLineNames) (f : Func) : OneLine (f.signature r) := by
  have hparams : OneLine (r.renderParams f.params) := by
    refine OneLine.intercalate (by decide) fun t ht => ?_
    obtain ⟨p, -, rfl⟩ := List.mem_map.mp ht
    have htype : OneLine (((r.variableAt? p).map (r.spelling ·.type)).getD "") := by
      cases r.variableAt? p with
      | none => exact (by decide : OneLine "")
      | some v => exact hr.text v.type.spelling
    exact (htype.append (by decide)).append (hr.variableName p)
  have htype : OneLine (r.spelling f.returnType) := hr.text f.returnType.spelling
  exact ((((htype.append (by decide)).append (hr.text f.name)).append (by decide)).append hparams).append (by decide)

end OneLineTrees

/-! ## Statements follow

The cases of the induction are those of the writing of a statement.  One fact on depths is needed on the way: a statement
comes back to the depth that it started from, so the brace that closes a block is written one level up. -/

mutual

/-- A statement leaves an emitter at the depth at which it finds it. -/
theorem Stmt.emit_depth (r : Registry) : ∀ (s : Stmt) (position : Position) (e : Emitter),
    (s.emit r position e).depth = e.depth
  | .assign .., position, e => by cases position <;> rfl
  | .declare .., position, e => by cases position <;> rfl
  | .effect _, position, e => by cases position <;> rfl
  | .raw _, position, e => by cases position <;> rfl
  | .result _, _, _ => rfl
  | .branch condition body none, position, e => by
    show (emitAll r _ body).depth - 1 = e.depth
    rw [emitAll_depth r body]
    rfl
  | .branch condition body (some other), position, e => by
    show (emitAll r _ other).depth - 1 = e.depth
    rw [emitAll_depth r other]
    show (emitAll r _ body).depth - 1 = e.depth
    rw [emitAll_depth r body]
    rfl
  | .count start condition step body, position, e => by
    show (emitAll r _ body).depth - 1 = e.depth
    rw [emitAll_depth r body]
    show (step.emit r .header _).depth = e.depth
    rw [Stmt.emit_depth r step]
    exact Stmt.emit_depth r start .header _
  | .loop condition body, position, e => by
    show (emitAll r _ body).depth - 1 = e.depth
    rw [emitAll_depth r body]
    rfl

/-- And so do statements one after the other. -/
theorem emitAll_depth (r : Registry) : ∀ (body : List Stmt) (e : Emitter), (emitAll r e body).depth = e.depth
  | [], _ => rfl
  | s :: rest, e => by rw [emitAll, emitAll_depth r rest, Stmt.emit_depth r s]

end

/-- A function leaves an emitter at the depth at which it finds it. -/
theorem Func.emit_depth (r : Registry) (f : Func) (e : Emitter) : (f.emit r e).depth = e.depth := by
  show (emitAll r _ _).depth - 1 = e.depth
  rw [emitAll_depth]
  rfl

/-- A statement leaves something written, if something was or if it begins with blanks. -/
theorem Stmt.emit_text_ne (r : Registry) (s : Stmt) (position : Position) {e : Emitter}
    (h : e.text ≠ "" ∨ position = .line ∧ e.depth ≠ 0) : (s.emit r position e).text ≠ "" := by
  -- simple statements stand on a line of their own or in a header
  have hsimple : ∀ text, (e.simple position text).text ≠ "" := fun text => by
    cases position with
    | line => exact inline_text_ne _ (by decide)
    | header => exact text_ne_inline (h.resolve_right nofun) text
  cases s with
  | assign target op value => exact hsimple _
  | declare type declarator value => exact hsimple _
  | effect value => exact hsimple _
  | raw text =>
    cases position with
    | line => exact line_text_ne e (h.imp_right fun hd => Or.inl hd.2)
    | header => exact text_ne_inline (h.resolve_right nofun) _
  | result value => exact inline_text_ne _ (by decide)
  | branch condition body alternative => cases alternative <;> exact line_text_ne _ (Or.inr (Or.inr (by decide)))
  | count start condition step body => exact line_text_ne _ (Or.inr (Or.inr (by decide)))
  | loop condition body => exact line_text_ne _ (Or.inr (Or.inr (by decide)))

section Following

variable {r : Registry} {k : Nat} {o : String} {a e : Emitter}

/-- A simple statement makes an emitter that is ready follow. -/
theorem Emitter.Ready.simple (h : Ready k o a e) (ho : o ≠ "") {text : String} (ht : OneLine text) (position : Position)
    (hp : position = .header → a.text ≠ "") : Follows k o (a.simple position text) (e.simple position text) := by
  cases position with
  | line => exact ((h.line ho (by decide)).inline ht).inline (by decide)
  | header => exact (h.follows (hp rfl)).inline ht

/-- The line that opens a conditional or a loop. -/
theorem Emitter.Ready.condition (h : Ready k o a e) (ho : o ≠ "") (keyword : String) (hk : OneLine keyword) {text : String}
    (ht : OneLine text) :
    Ready k o (((a.line keyword).inline text).inline ") \x7b") (((e.line keyword).inline text).inline ") \x7b") :=
  (((h.line ho hk).inline ht).inline (by decide)).ready (inline_text_ne _ (by decide))

/-- The line behind a block. -/
theorem Emitter.Ready.closed {body : Block} (h : Ready k o (emitAll r a.enter body) (emitAll r e.enter body)) (ho : o ≠ "")
    {s : String} (hs : OneLine s) :
    Follows k o ((emitAll r a.enter body).exit.line s) ((emitAll r e.enter body).exit.line s) := by
  refine (h.exit ?_).line ho hs
  rw [emitAll_depth]
  exact Nat.succ_ne_zero a.depth

mutual

/-- A statement makes an emitter that is ready follow.  In a header the line is open already, so something is written. -/
theorem Stmt.emit_follows (hr : r.OneLineNames) (ho : o ≠ "") : ∀ (s : Stmt) (position : Position) {a e : Emitter},
    s.MadeOf Expr.IsOneLine Stmt.IsOneLine → Emitter.Ready k o a e → (position = .header → a.text ≠ "") →
      Emitter.Follows k o (s.emit r position a) (s.emit r position e)
  | .assign target op value, position, a, e, hs, h, hp => by
    rw [Stmt.emit, Stmt.emit]
    exact h.simple ho (Stmt.assignText_oneLine hr hs) position hp
  | .declare type declarator value, position, a, e, hs, h, hp => by
    rw [Stmt.emit, Stmt.emit]
    exact h.simple ho (Stmt.declareText_oneLine hr hs) position hp
  | .effect value, position, a, e, hs, h, hp => by
    rw [Stmt.emit, Stmt.emit]
    exact h.simple ho (Expr.render_oneLine hr value hs.effect) position hp
  | .raw text, position, a, e, hs, h, hp => by
    have htext : OneLine text := hs.self
    cases position with
    | line =>
      rw [Stmt.emit, Stmt.emit]
      exact h.line ho htext
    | header =>
      rw [Stmt.emit, Stmt.emit]
      exact (h.follows (hp rfl)).inline htext.withoutSemicolons
  | .result value, position, a, e, hs, h, hp => by
    rw [Stmt.emit, Stmt.emit]
    exact ((h.line ho (by decide)).inline (Expr.render_oneLine hr value hs.result)).inline (by decide)
  | .branch condition body none, position, a, e, hs, h, hp => by
    obtain ⟨hcondition, hbody⟩ := hs.whenever
    have hif := h.condition ho "if (" (by decide) (Expr.render_oneLine hr condition hcondition)
    rw [Stmt.emit, Stmt.emit]
    exact (emitAll_ready hr ho body hbody hif.enter (Nat.succ_ne_zero _)).closed ho (by decide)
  | .branch condition body (some other), position, a, e, hs, h, hp => by
    obtain ⟨hcondition, hbody, hother⟩ := hs.branch
    have hif := h.condition ho "if (" (by decide) (Expr.render_oneLine hr condition hcondition)
    have helse := (emitAll_ready hr ho body hbody hif.enter (Nat.succ_ne_zero _)).closed ho (s := "\x7d else \x7b") (by decide)
    have hready := helse.ready (line_text_ne _ (Or.inr (Or.inr (by decide))))
    rw [Stmt.emit, Stmt.emit]
    exact (emitAll_ready hr ho other hother hready.enter (Nat.succ_ne_zero _)).closed ho (by decide)
  | .count start condition step body, position, a, e, hs, h, hp => by
    obtain ⟨hstart, hcondition, hstep, hbody⟩ := hs.count
    have hfor := h.line ho (s := "for (") (by decide)
    have hopen : (a.line "for (").text ≠ "" := line_text_ne a (Or.inr (Or.inr (by decide)))
    -- whatever the first part writes, even lines of its own, the header goes on behind it
    have hfirst := (Stmt.emit_follows hr ho start .header hstart (hfor.ready hopen) fun _ => hopen).inline
      (s := "; ") (by decide)
    have hsecond := (hfirst.inline (Expr.render_oneLine hr condition hcondition)).inline (s := "; ") (by decide)
    have hwritten : (((((start.emit r .header (a.line "for (")).inline "; ").inline (condition.render r)).inline "; ")).text
        ≠ "" := inline_text_ne _ (by decide)
    have hthird := (Stmt.emit_follows hr ho step .header hstep (hsecond.ready hwritten) fun _ => hwritten).inline
      (s := ") \x7b") (by decide)
    have hready := hthird.ready (inline_text_ne _ (by decide))
    rw [Stmt.emit, Stmt.emit]
    exact (emitAll_ready hr ho body hbody hready.enter (Nat.succ_ne_zero _)).closed ho (by decide)
  | .loop condition body, position, a, e, hs, h, hp => by
    obtain ⟨hcondition, hbody⟩ := hs.loop
    have hwhile := h.condition ho "while (" (by decide) (Expr.render_oneLine hr condition hcondition)
    rw [Stmt.emit, Stmt.emit]
    exact (emitAll_ready hr ho body hbody hwhile.enter (Nat.succ_ne_zero _)).closed ho (by decide)

/-- Statements in a block keep an emitter ready, one after the other. -/
theorem emitAll_ready (hr : r.OneLineNames) (ho : o ≠ "") : ∀ (body : List Stmt) {a e : Emitter},
    Block.MadeOf Expr.IsOneLine Stmt.IsOneLine body → Emitter.Ready k o a e → a.depth ≠ 0 →
      Emitter.Ready k o (emitAll r a body) (emitAll r e body)
  | [], a, e, _, h, _ => by
    rw [emitAll, emitAll]
    exact h
  | s :: rest, a, e, hbody, h, hd => by
    obtain ⟨hs, hrest⟩ := Block.madeOf_cons.mp hbody
    have hnext := (Stmt.emit_follows hr ho s .line hs h nofun).ready (Stmt.emit_text_ne r s .line (Or.inr ⟨rfl, hd⟩))
    have hdepth : (s.emit r .line a).depth ≠ 0 := by rwa [Stmt.emit_depth]
    rw [emitAll, emitAll]
    exact emitAll_ready hr ho rest hrest hnext hdepth

end

/-- A function makes an emitter that is ready follow. -/
theorem Func.emit_follows (hr : r.OneLineNames) (ho : o ≠ "") (f : Func)
    (hf : Block.MadeOf Expr.IsOneLine Stmt.IsOneLine (f.body.getD [])) (h : Emitter.Ready k o a e) :
    Emitter.Follows k o (f.emit r a) (f.emit r e) := by
  have hopened := ((h.line ho (Func.signature_oneLine hr f)).inline (s := " \x7b") (by decide)).ready
    (inline_text_ne _ (by decide))
  exact (emitAll_ready hr ho _ hf hopened.enter (Nat.succ_ne_zero _)).closed ho (by decide)

/-- Statements leave something written in a block, if there are any. -/
theorem emitAll_text_ne (r : Registry) : ∀ (body : List Stmt) {e : Emitter}, e.text ≠ "" ∨ body ≠ [] ∧ e.depth ≠ 0 →
    (emitAll r e body).text ≠ ""
  | [], e, h => h.resolve_right fun hb => hb.1 rfl
  | s :: rest, e, h => by
    have hnext : (s.emit r .line e).text ≠ "" := Stmt.emit_text_ne r s .line (h.imp_right fun hb => ⟨rfl, hb.2⟩)
    rw [emitAll]
    exact emitAll_text_ne r rest (Or.inl hnext)

end Following

/-! ## Rendering in surroundings -/

/-- What an emitter that follows has written, at which depth. -/
theorem Emitter.Follows.eq {k : Nat} {o : String} {a e : Emitter} (h : Follows k o a e) (hd : a.depth = 0) :
    e = { depth := k, text := o ++ "\n" ++ shifted k a.text } := by
  cases e
  obtain ⟨rfl, rfl⟩ := h
  rw [hd]
  rfl

/-- **Rendering depends on what is around it by the indentation only.**  Behind text that is not empty, a statement, a function
or an announcement of one is written on a new line as it is written on its own, with two blanks more in front of each line
for each level of depth; a block likewise, if it is not empty; and the depth stays.  An expression and a place are written
as they are on their own, whatever stands before them. -/
theorem emit_shifted (r : Registry) :
    (∀ (k : Nat) (o : String),
      (∀ x : Expr, (x.emit r {}).text = x.render r ∧ x.emit r ⟨k, o⟩ = ⟨k, o ++ x.render r⟩) ∧
      ∀ p : Place, (p.emit r {}).text = p.render r ∧ p.emit r ⟨k, o⟩ = ⟨k, o ++ p.render r⟩) ∧
    (r.OneLineNames → ∀ (k : Nat) (o : String), o ≠ "" →
      (∀ s : Stmt, s.MadeOf Expr.IsOneLine Stmt.IsOneLine →
        s.emit r .line ⟨k, o⟩ = ⟨k, o ++ "\n" ++ shifted k (s.render r)⟩) ∧
      (∀ f : Func, Block.MadeOf Expr.IsOneLine Stmt.IsOneLine (f.body.getD []) →
        f.emit r ⟨k, o⟩ = ⟨k, o ++ "\n" ++ shifted k (f.render r)⟩) ∧
      (∀ f : Func, f.emitPrototype r ⟨k, o⟩ = ⟨k, o ++ "\n" ++ shifted k (f.renderPrototype r)⟩) ∧
      Block.emit r ⟨k, o⟩ [] = ⟨k, o⟩ ∧
      ∀ b : Block, b ≠ [] → Block.MadeOf Expr.IsOneLine Stmt.IsOneLine b →
        Block.emit r ⟨k, o⟩ b = ⟨k, o ++ "\n" ++ shifted k (Block.render r b)⟩) := by
  have hexpr : ∀ (k : Nat) (o : String) (x : Expr),
      (x.emit r {}).text = x.render r ∧ x.emit r ⟨k, o⟩ = ⟨k, o ++ x.render r⟩ := fun k o x => by
    rw [Expr.emit_eq, Expr.emit_eq]
    exact ⟨String.empty_append, rfl⟩
  refine ⟨fun k o => ⟨hexpr k o, fun p => hexpr k o p.toExpr⟩, fun hr k o ho => ?_⟩
  -- an emitter that has written nothing is followed from the start, and each tree makes the other one follow
  have hready : Ready k o {} ⟨k, o⟩ := Ready.start k o 0
  refine ⟨fun s hs => ?_, fun f hf => ?_, fun f => ?_, rfl, fun b hne hb => ?_⟩
  · exact (Stmt.emit_follows hr ho s .line hs hready nofun).eq (Stmt.emit_depth r s .line {})
  · exact (Func.emit_follows hr ho f hf hready).eq (Func.emit_depth r f {})
  · exact ((hready.line ho (Func.signature_oneLine hr f)).inline (by decide)).eq rfl
  · -- a block comes back to the depth outside only after its last statement, so the two are compared inside
    have hbody := emitAll_ready hr ho b hb hready.enter (Nat.succ_ne_zero 0)
    have hwritten : (emitAll r ({} : Emitter).enter b).text ≠ "" :=
      emitAll_text_ne r b (Or.inr ⟨hne, Nat.succ_ne_zero 0⟩)
    have hdepth : (emitAll r ({} : Emitter).enter b).depth = 1 := emitAll_depth r b _
    exact ((hbody.exit (by rw [hdepth]; decide)).follows hwritten).eq (by rw [Emitter.exit, hdepth])

/-- The texts of a registry with one variable and one function end no line. -/
theorem shortNames_oneLine : shortNames.OneLineNames := by
  intro s text h
  have hall : ∀ t ∈ shortNames.symbols.texts.toList, OneLine t := by decide
  exact hall text (Array.mem_toList_iff.mpr (Array.mem_of_getElem? h))

theorem knotted_shifted : shortNames.OneLineNames ∧
    Block.MadeOf Expr.IsOneLine Stmt.IsOneLine (knotted.body.getD []) ∧
    knotted.emit shortNames ⟨2, "/* */"⟩ = ⟨2, "/* */\n" ++ shifted 2 (knotted.render shortNames)⟩ := by
  have hparts : ∀ x ∈ blockParts (knotted.body.getD []), x.IsOneLine := by
    simp only [knotted, Option.getD_some, blockParts, Stmt.parts, Expr.parts, Expr.partsOfArgs, List.append_nil,
      List.cons_append, List.nil_append, List.forall_mem_cons]
    exact ⟨trivial, (by decide : OneLine "\x7b\x7d"), trivial, trivial, trivial, (by decide : OneLine ""),
      List.forall_mem_nil _⟩
  have hsteps : ∀ x ∈ blockSteps (knotted.body.getD []), x.IsOneLine := by
    simp only [knotted, Option.getD_some, blockSteps, Stmt.steps, List.append_nil, List.cons_append, List.nil_append,
      List.forall_mem_cons]
    exact ⟨trivial, trivial, (by decide : OneLine "x = \x7b1\x7d;"), trivial, trivial, trivial, List.forall_mem_nil _⟩
  have hmade := Block.madeOf_iff.mpr ⟨hparts, hsteps⟩
  obtain ⟨-, hfunctions, -⟩ := (emit_shifted shortNames).2 shortNames_oneLine 2 "/* */" (by decide)
  exact ⟨shortNames_oneLine, hmade, hfunctions knotted hmade⟩

end SeedCorpus
