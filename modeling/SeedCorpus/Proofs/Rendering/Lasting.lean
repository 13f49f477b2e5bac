/-
  Rendering while the registry grows.

  Bodies are built while variables, helpers and functions are still being declared, and rendered at the very end.  What a tree
  is rendered to is fixed nevertheless when it is built.

  1. A tree refers to a registry by the handles that it mentions (`Expr.mentions`, `Stmt.mentions`, `Block.mentions`), and a
     function by those in its first line too (`Func.mentions`).
  2. Two registries in which these stand for the same texts render it alike (`Expr.render_agree`, `Stmt.emit_agree`).
  3. What a registry has given out stands for the same text in every later state of it, whatever keys come to mean and
     whatever bodies are set (`render_lasts`).
-/
import Mathlib.Data.List.Basic
import SeedCorpus.Proofs.Synthesis.Handles
import SeedCorpus.Proofs.Syntax.Nodes

namespace SeedCorpus

/-! ## What trees mention

A tree names nothing by itself: it holds handles, and a registry says what they stand for.  The handles of a tree are read
off its nodes one by one, so the lists of expressions and statements in a tree (`Stmt.parts`, `Stmt.steps`) are all that is
needed to collect them.  A function is different in one point: the types of its parameters are not in the tree but in the
registry.  That is why what its first line mentions depends on a registry. -/

/-- The handles that an expression itself holds. -/
def Expr.handles : Expr → List Handle
  | .var v => [.var v]
  | .element base _ => [.var base]
  | .int _ => []
  | .literal _ => []
  | .binary _ op _ => [.symbol op.sign]
  | .call callee _ => [.function callee]

/-- The handles that a statement itself holds. -/
def Stmt.handles : Stmt → List Handle
  | .assign _ (some op) _ => [.symbol op.sign]
  | .declare type declarator _ => [.symbol type.spelling, .var declarator.variable]
  | _ => []

/-- The handles that an expression mentions. -/
def Expr.mentions (e : Expr) : List Handle := e.parts.flatMap Expr.handles

/-- The handles that a statement mentions. -/
def Stmt.mentions (s : Stmt) : List Handle := s.parts.flatMap Expr.handles ++ s.steps.flatMap Stmt.handles

/-- The handles that a block mentions. -/
def Block.mentions (b : Block) : List Handle := (blockParts b).flatMap Expr.handles ++ (blockSteps b).flatMap Stmt.handles

/-- The handles that a parameter stands for: the variable and its type. -/
def Registry.paramMentions (r : Registry) (p : VarId) : List Handle :=
  .var p :: ((r.variableAt? p).map fun x => .symbol x.type.spelling).toList

/-- The handles that the first line of a function mentions. -/
def Func.headMentions (r : Registry) (f : Func) : List Handle :=
  .symbol f.returnType.spelling :: .symbol f.name :: f.params.flatMap r.paramMentions

/-- The handles that a function mentions. -/
def Func.mentions (r : Registry) (f : Func) : List Handle := f.headMentions r ++ Block.mentions (f.body.getD [])

/-! ## Registries that agree

Here nothing is said of growth: the two registries may be any, as long as they say the same of what the tree mentions. -/

/-- The handle stands for the same text in both registries. -/
def Handle.Agrees (r r' : Registry) (h : Handle) : Prop := ∃ text, h.text? r = some text ∧ h.text? r' = some text

/-- The handles that an expression itself holds stand for the same texts in both registries. -/
def Expr.Agrees (r r' : Registry) (e : Expr) : Prop := ∀ h ∈ e.handles, h.Agrees r r'

/-- The handles that a statement itself holds stand for the same texts in both registries. -/
def Stmt.Agrees (r r' : Registry) (s : Stmt) : Prop := ∀ h ∈ s.handles, h.Agrees r r'

section Agreement

variable {r r' : Registry}

/-- Registries that agree on a symbol give it one text. -/
theorem Handle.Agrees.symbol {s : Symbol} (h : (Handle.symbol s).Agrees r r') : r'.text s = r.text s := by
  obtain ⟨text, ht, ht'⟩ := h
  rw [Registry.text_eq ht, Registry.text_eq ht']

/-- Registries that agree on a variable give it one name, though its type may not be the same. -/
theorem Handle.Agrees.var {v : VarId} (h : (Handle.var v).Agrees r r') : r'.variableName v = r.variableName v := by
  obtain ⟨text, ht, ht'⟩ := h
  rw [Registry.variableName_eq ht, Registry.variableName_eq ht']

/-- Registries that agree on a function give it one name. -/
theorem Handle.Agrees.function {id : FuncId} (h : (Handle.function id).Agrees r r') :
    r'.functionName id = r.functionName id := by
  obtain ⟨text, ht, ht'⟩ := h
  rw [Registry.functionName_eq ht, Registry.functionName_eq ht']

/-- Agreement on what an expression mentions is agreement at each of its nodes. -/
theorem Expr.all_agrees {e : Expr} (h : ∀ x ∈ e.mentions, x.Agrees r r') : e.All (Expr.Agrees r r') :=
  fun x hx y hy => h y (List.mem_flatMap.mpr ⟨x, hx, hy⟩)

theorem Stmt.madeOf_agrees {s : Stmt} (h : ∀ x ∈ s.mentions, x.Agrees r r') :
    s.MadeOf (Expr.Agrees r r') (Stmt.Agrees r r') where
  parts x hx y hy := h y (List.mem_append_left _ (List.mem_flatMap.mpr ⟨x, hx, hy⟩))
  steps x hx y hy := h y (List.mem_append_right _ (List.mem_flatMap.mpr ⟨x, hx, hy⟩))

theorem Block.madeOf_agrees {b : Block} (h : ∀ x ∈ Block.mentions b, x.Agrees r r') :
    Block.MadeOf (Expr.Agrees r r') (Stmt.Agrees r r') b :=
  Block.madeOf_iff.mpr ⟨fun x hx y hy => h y (List.mem_append_left _ (List.mem_flatMap.mpr ⟨x, hx, hy⟩)),
    fun x hx y hy => h y (List.mem_append_right _ (List.mem_flatMap.mpr ⟨x, hx, hy⟩))⟩

mutual

/-- An expression is rendered alike if its handles stand for the same texts. -/
theorem Expr.render_agree : ∀ e : Expr, e.All (Expr.Agrees r r') → e.render r' = e.render r
  | .var v, h => (h.self _ List.mem_cons_self).var
  | .element base at_, h => by
    obtain ⟨hself, hat⟩ := Expr.all_element.mp h
    rw [Expr.render, Expr.render, (hself _ List.mem_cons_self).var, Expr.render_agree at_ hat]
  | .int value, _ => rfl
  | .literal text, _ => rfl
  | .binary lhs op rhs, h => by
    obtain ⟨hself, hlhs, hrhs⟩ := Expr.all_binary.mp h
    rw [Expr.render, Expr.render, (hself _ List.mem_cons_self).symbol, Expr.render_agree lhs hlhs,
      Expr.render_agree rhs hrhs]
  | .call callee args, h => by
    obtain ⟨hself, hargs⟩ := Expr.all_call.mp h
    rw [Expr.render, Expr.render, (hself _ List.mem_cons_self).function, Expr.renderArgs_agree args hargs]

/-- And so are the arguments of a call. -/
theorem Expr.renderArgs_agree : ∀ args : List Expr, (∀ x ∈ args, x.All (Expr.Agrees r r')) →
    Expr.renderArgs r' args = Expr.renderArgs r args
  | [], _ => rfl
  | [e], h => by
    rw [Expr.renderArgs, Expr.renderArgs, Expr.render_agree e (h e List.mem_cons_self)]
  | e :: f :: rest, h => by
    obtain ⟨he, hrest⟩ := List.forall_mem_cons.mp h
    rw [Expr.renderArgs, Expr.renderArgs, Expr.render_agree e he, Expr.renderArgs_agree (f :: rest) hrest]

end

theorem Place.render_agree {p : Place} (h : p.toExpr.All (Expr.Agrees r r')) : p.render r' = p.render r :=
  Expr.render_agree p.toExpr h

theorem Stmt.assignText_agree {target : Place} {op : Option Operation} {value : Expr}
    (h : (Stmt.assign target op value).MadeOf (Expr.Agrees r r') (Stmt.Agrees r r')) :
    Stmt.assignText r' target op value = Stmt.assignText r target op value := by
  obtain ⟨htarget, hvalue⟩ := h.assign
  -- without an operation there is no sign, and both texts are empty
  have hop : (op.map (r'.text ·.sign)).getD "" = (op.map (r.text ·.sign)).getD "" := by
    cases op with
    | none => rfl
    | some o => exact (h.self _ List.mem_cons_self).symbol
  rw [assignText, assignText, Place.render_agree htarget, hop, Expr.render_agree value hvalue]

theorem Stmt.declareText_agree {type : ValueType} {declarator : Declarator} {value : Expr}
    (h : (Stmt.declare type declarator value).MadeOf (Expr.Agrees r r') (Stmt.Agrees r r')) :
    Stmt.declareText r' type declarator value = Stmt.declareText r type declarator value := by
  have hspelling : r'.spelling type = r.spelling type := (h.self _ List.mem_cons_self).symbol
  have hvariable : (Handle.var declarator.variable).Agrees r r' := h.self _ (List.mem_cons_of_mem _ List.mem_cons_self)
  have hdeclarator : declarator.render r' = declarator.render r := by
    cases declarator with
    | scalar v => exact hvariable.var
    | array v => exact congrArg (· ++ "[]") hvariable.var
  rw [declareText, declareText, hspelling, hdeclarator, Expr.render_agree value h.declare]

mutual

/-- A statement is written alike if its handles stand for the same texts, wherever it stands. -/
theorem Stmt.emit_agree : ∀ (s : Stmt) (position : Position) (e : Emitter),
    s.MadeOf (Expr.Agrees r r') (Stmt.Agrees r r') → s.emit r' position e = s.emit r position e
  | .assign target op value, position, e, h => by
    rw [Stmt.emit, Stmt.emit, Stmt.assignText_agree h]
  | .declare type declarator value, position, e, h => by
    rw [Stmt.emit, Stmt.emit, Stmt.declareText_agree h]
  | .effect value, position, e, h => by
    rw [Stmt.emit, Stmt.emit, Expr.render_agree value h.effect]
  | .raw text, position, e, _ => by
    cases position <;> rw [Stmt.emit, Stmt.emit]
  | .result value, position, e, h => by
    rw [Stmt.emit, Stmt.emit, Expr.render_agree value h.result]
  | .branch condition body none, position, e, h => by
    obtain ⟨hcondition, hbody⟩ := h.whenever
    simp only [Stmt.emit, Expr.render_agree condition hcondition, emitAll_agree body _ hbody]
  | .branch condition body (some other), position, e, h => by
    obtain ⟨hcondition, hbody, hother⟩ := h.branch
    simp only [Stmt.emit, Expr.render_agree condition hcondition, emitAll_agree body _ hbody, emitAll_agree other _ hother]
  | .count start condition step body, position, e, h => by
    obtain ⟨hstart, hcondition, hstep, hbody⟩ := h.count
    simp only [Stmt.emit, Stmt.emit_agree start .header _ hstart, Expr.render_agree condition hcondition,
      Stmt.emit_agree step .header _ hstep, emitAll_agree body _ hbody]
  | .loop condition body, position, e, h => by
    obtain ⟨hcondition, hbody⟩ := h.loop
    simp only [Stmt.emit, Expr.render_agree condition hcondition, emitAll_agree body _ hbody]

/-- And so are statements one after the other. -/
theorem emitAll_agree : ∀ (body : List Stmt) (e : Emitter), Block.MadeOf (Expr.Agrees r r') (Stmt.Agrees r r') body →
    emitAll r' e body = emitAll r e body
  | [], e, _ => by
    rw [emitAll, emitAll]
  | s :: rest, e, h => by
    obtain ⟨hs, hrest⟩ := Block.madeOf_cons.mp h
    rw [emitAll, emitAll, Stmt.emit_agree s .line e hs, emitAll_agree rest _ hrest]

end

/-- A block adds no text of its own; it is written one level deeper. -/
theorem Block.emit_agree {b : Block} (h : Block.MadeOf (Expr.Agrees r r') (Stmt.Agrees r r') b) (e : Emitter) :
    Block.emit r' e b = Block.emit r e b := by
  rw [Block.emit, Block.emit, emitAll_agree b _ h]

end Agreement

/-! ## Registries that grow

A registry that grows keeps what it has (`Registry.LastsIn`), and keeping is stronger than agreeing: whatever stands for a
text now stands for it later. -/

section Growth

variable {r r' : Registry}

/-- What stands for a text goes on to stand for it. -/
theorem Handle.agrees_of_lasts (hl : r.LastsIn r') {h : Handle} {text : String} (ht : h.text? r = some text) :
    h.Agrees r r' := ⟨text, ht, Handle.text?_lasts hl ht⟩

/-- A parameter keeps its type and its name. -/
theorem Registry.variableAt?_of_param (hl : r.LastsIn r') {p : VarId} (h : ∃ text, (Handle.var p).text? r = some text) :
    r'.variableAt? p = r.variableAt? p := by
  obtain ⟨text, ht⟩ := h
  obtain ⟨x, hx, -⟩ := Option.bind_eq_some_iff.mp ht
  rw [hx]
  exact hl.vars p x hx

/-- The handles that the first line of a function mentions are the same later. -/
theorem Func.headMentions_lasts (hl : r.LastsIn r') {f : Func} (h : ∀ x ∈ f.headMentions r, ∃ text, x.text? r = some text) :
    f.headMentions r' = f.headMentions r := by
  have hparams : f.params.flatMap r'.paramMentions = f.params.flatMap r.paramMentions := by
    refine List.flatMap_congr fun p hp => ?_
    have hvar := h (.var p) (List.mem_cons_of_mem _ (List.mem_cons_of_mem _
      (List.mem_flatMap.mpr ⟨p, hp, List.mem_cons_self⟩)))
    rw [Registry.paramMentions, Registry.paramMentions, Registry.variableAt?_of_param hl hvar]
  rw [headMentions, headMentions, hparams]

/-- The first line of a function lasts. -/
theorem Func.signature_lasts (hl : r.LastsIn r') {f : Func} (h : ∀ x ∈ f.headMentions r, ∃ text, x.text? r = some text) :
    f.signature r' = f.signature r := by
  have hagrees : ∀ x ∈ f.headMentions r, x.Agrees r r' := fun x hx => by
    obtain ⟨text, ht⟩ := h x hx
    exact Handle.agrees_of_lasts hl ht
  have htype : r'.spelling f.returnType = r.spelling f.returnType := (hagrees _ List.mem_cons_self).symbol
  have hname : r'.text f.name = r.text f.name := (hagrees _ (List.mem_cons_of_mem _ List.mem_cons_self)).symbol
  have hparams : r'.renderParams f.params = r.renderParams f.params := by
    unfold Registry.renderParams
    congr 1
    refine List.map_congr_left fun p hp => ?_
    have hmentions : ∀ x ∈ r.paramMentions p, x ∈ f.headMentions r := fun x hx =>
      List.mem_cons_of_mem _ (List.mem_cons_of_mem _ (List.mem_flatMap.mpr ⟨p, hp, hx⟩))
    have hvar := hmentions (.var p) List.mem_cons_self
    rw [(hagrees _ hvar).var, Registry.variableAt?_of_param hl (h _ hvar)]
    cases hx : r.variableAt? p with
    | none => rfl
    | some x =>
      have htype : (Handle.symbol x.type.spelling).Agrees r r' := hagrees _ (hmentions _ (by simp [Registry.paramMentions, hx]))
      have hspelling : r'.spelling x.type = r.spelling x.type := htype.symbol
      rw [Option.map_some, Option.map_some, hspelling]
  rw [signature, signature, htype, hname, hparams]

end Growth

/-! ## Rendering lasts

`AllIssued` looks at the acts, `AllResolve` at the registry that they lead to.  The first gives the second, and the second
lasts. -/

/-- All of the handles were given out by acts on a registry that was empty. -/
def AllIssued (history : List Act) (handles : List Handle) : Prop := ∀ h ∈ handles, h ∈ ({} : Registry).issued history

/-- All of the handles stand for a text. -/
def AllResolve (r : Registry) (handles : List Handle) : Prop := ∀ h ∈ handles, ∃ text, h.text? r = some text

/-- What acts have given out stands for a text. -/
theorem allResolve_of_issued {history : List Act} {handles : List Handle} (h : AllIssued history handles) :
    AllResolve (({} : Registry).after history) handles := fun x hx => text?_of_issued history nofun (h x hx)

theorem AllResolve.lasts {r r' : Registry} (hl : r.LastsIn r') {handles : List Handle} (h : AllResolve r handles) :
    AllResolve r' handles := fun x hx => by
  obtain ⟨text, ht⟩ := h x hx
  exact ⟨text, Handle.text?_lasts hl ht⟩

theorem AllResolve.agrees {r r' : Registry} (hl : r.LastsIn r') {handles : List Handle} (h : AllResolve r handles) :
    ∀ x ∈ handles, x.Agrees r r' := fun x hx => by
  obtain ⟨text, ht⟩ := h x hx
  exact Handle.agrees_of_lasts hl ht

/-- A function that is given no body by acts stays what it is. -/
theorem Registry.functionAt?_after (later : List Act) : ∀ {r : Registry} {id : FuncId} {f : Func},
    r.functionAt? id = some f → (∀ body, .setBody id body ∉ later) → (r.after later).functionAt? id = some f := by
  induction later with
  | nil => exact fun h _ => h
  | cons act later ih =>
    intro r id f hf hnone
    refine ih ?_ fun body hmem => hnone body (List.mem_cons_of_mem _ hmem)
    -- only two acts touch the functions: one puts a new function behind those that are there, and the other changes a body
    cases act with
    | declareFunction returnType name params => exact functionAt?_declareFunction hf returnType name params
    | setBody other body =>
      have hne : id ≠ other := by
        rintro rfl
        exact hnone body List.mem_cons_self
      exact (functionAt?_setBody_ne hne r body).trans hf
    | _ => exact hf

section Lasting

variable {r r' : Registry}

theorem Func.mentions_lasts (hl : r.LastsIn r') {f : Func} (h : AllResolve r (f.headMentions r)) :
    f.mentions r' = f.mentions r := by
  rw [mentions, mentions, headMentions_lasts hl h]

theorem Func.renderPrototype_lasts (hl : r.LastsIn r') {f : Func} (h : AllResolve r (f.headMentions r)) :
    f.renderPrototype r' = f.renderPrototype r := by
  rw [renderPrototype, renderPrototype, emitPrototype, emitPrototype, signature_lasts hl h]

theorem Func.render_keeps (hl : r.LastsIn r') {f : Func} (h : AllResolve r (f.mentions r)) : f.render r' = f.render r := by
  obtain ⟨hhead, hbody⟩ := List.forall_mem_append.mp h
  have hmade := Block.madeOf_agrees (AllResolve.agrees hl hbody)
  rw [Func.render, Func.render, Func.emit, Func.emit, signature_lasts hl hhead, Block.emit_agree hmade]

end Lasting

/-- **What is rendered lasts.**  A tree over handles that a registry has given out is rendered to the same text in every later
state of the registry, and all of its handles still stand for a text.  The same holds of functions and their announcements;
and a function that has been declared is the same function later, unless it has been given a body since. -/
theorem render_lasts (history later : List Act) (r r' : Registry) (hr : r = ({} : Registry).after history)
    (hr' : r' = r.after later) :
    (∀ e : Expr, AllIssued history e.mentions → AllResolve r' e.mentions ∧ e.render r' = e.render r) ∧
    (∀ p : Place, AllIssued history p.toExpr.mentions → AllResolve r' p.toExpr.mentions ∧ p.render r' = p.render r) ∧
    (∀ s : Stmt, AllIssued history s.mentions → AllResolve r' s.mentions ∧ s.render r' = s.render r) ∧
    (∀ b : Block, AllIssued history (Block.mentions b) →
      AllResolve r' (Block.mentions b) ∧ Block.render r' b = Block.render r b) ∧
    (∀ f : Func, AllIssued history (f.headMentions r) →
      AllResolve r' (f.headMentions r') ∧ f.renderPrototype r' = f.renderPrototype r) ∧
    (∀ f : Func, AllIssued history (f.mentions r) → AllResolve r' (f.mentions r') ∧ f.render r' = f.render r) ∧
    ∀ id f, r.functionAt? id = some f → ∃ f', r'.functionAt? id = some f' ∧
      (AllIssued history (f.headMentions r) → f'.renderPrototype r' = f.renderPrototype r) ∧
      ((∀ body, .setBody id body ∉ later) → f' = f) := by
  have hl : r.LastsIn r' := hr' ▸ Registry.lastsIn_after later r
  have hresolve : ∀ {handles : List Handle}, AllIssued history handles → AllResolve r handles :=
    fun h => hr ▸ allResolve_of_issued h
  have hexpr : ∀ e : Expr, AllIssued history e.mentions → AllResolve r' e.mentions ∧ e.render r' = e.render r :=
    fun e he => ⟨(hresolve he).lasts hl, Expr.render_agree e (Expr.all_agrees ((hresolve he).agrees hl))⟩
  -- a place is rendered as the expression that reads it, so it needs no argument of its own
  refine ⟨hexpr, fun p => hexpr p.toExpr, fun s hs => ?_, fun b hb => ?_, fun f hf => ?_, fun f hf => ?_, fun id f hf => ?_⟩
  · have hsame := Stmt.emit_agree s .line {} (Stmt.madeOf_agrees ((hresolve hs).agrees hl))
    exact ⟨(hresolve hs).lasts hl, congrArg Emitter.text hsame⟩
  · have hsame := Block.emit_agree (Block.madeOf_agrees ((hresolve hb).agrees hl)) {}
    exact ⟨(hresolve hb).lasts hl, congrArg Emitter.text hsame⟩
  · rw [Func.headMentions_lasts hl (hresolve hf)]
    exact ⟨(hresolve hf).lasts hl, Func.renderPrototype_lasts hl (hresolve hf)⟩
  · rw [Func.mentions_lasts hl (List.forall_mem_append.mp (hresolve hf)).1]
    exact ⟨(hresolve hf).lasts hl, Func.render_keeps hl (hresolve hf)⟩
  · obtain ⟨body, hbody⟩ := hl.functions id f hf
    refine ⟨_, hbody, fun hhead => ?_, fun hnone => ?_⟩
    · -- the announcement does not look at the body
      have hprototype := Func.renderPrototype_lasts hl (hresolve hhead)
      exact hprototype
    · have hkept : r'.functionAt? id = some f := hr' ▸ Registry.functionAt?_after later hf hnone
      exact Option.some.inj (hbody.symm.trans hkept)

/-- A variable and two functions of it. -/
def twoDeclared : List Act :=
  Registry.cActs ++ [.declareVariable intType "arg", .declareFunction intType "f" [⟨0⟩], .declareFunction intType "g" [⟨0⟩]]

/-- Keys come to mean something else, names are used again, and one of the functions is given a body. -/
def thenChanged : List Act :=
  [.registerType "int" "long", .registerOperation "dif" "+", .declareVariable ⟨⟨99⟩⟩ "arg",
    .declareFunction ⟨⟨99⟩⟩ "f" [⟨1⟩], .setBody ⟨0⟩ []]

/-- A loop in whose body there is a loop that calls the first function. -/
def callingLoop : Block :=
  [.count (.declare intType (.scalar ⟨0⟩) (.int 1)) (.literal "1") (.effect (.var ⟨0⟩)) [
    .loop (.binary (.var ⟨0⟩) ⟨⟨5⟩⟩ (.int 2)) [.result (.call ⟨0⟩ [.element ⟨0⟩ (.int 0)])]]]

/-- The second function. -/
def secondDeclared : Func := { returnType := intType, name := ⟨11⟩, params := [⟨0⟩] }

/-- In the later state the key of the type means another spelling, both names have been given a second time, and the first
function has got a body.  The loop and the second function are rendered as before. -/
theorem callingLoop_lasts : AllIssued twoDeclared (Block.mentions callingLoop) ∧
    Block.render ((({} : Registry).after twoDeclared).after thenChanged) callingLoop =
      Block.render (({} : Registry).after twoDeclared) callingLoop ∧
    (({} : Registry).after twoDeclared).functionAt? ⟨1⟩ = some secondDeclared ∧
    ((({} : Registry).after twoDeclared).after thenChanged).functionAt? ⟨1⟩ = some secondDeclared ∧
    AllIssued twoDeclared (secondDeclared.mentions (({} : Registry).after twoDeclared)) ∧
    secondDeclared.render ((({} : Registry).after twoDeclared).after thenChanged) =
      secondDeclared.render (({} : Registry).after twoDeclared) := by
  have hblock : AllIssued twoDeclared (Block.mentions callingLoop) := by
    unfold AllIssued
    decide
  have hfunction : AllIssued twoDeclared (secondDeclared.mentions (({} : Registry).after twoDeclared)) := by
    unfold AllIssued
    decide
  have hdeclared : (({} : Registry).after twoDeclared).functionAt? ⟨1⟩ = some secondDeclared := by rfl
  obtain ⟨-, -, -, hblocks, -, hfunctions, hsame⟩ := render_lasts twoDeclared thenChanged _ _ rfl rfl
  obtain ⟨f', hf', -, hnone⟩ := hsame ⟨1⟩ secondDeclared hdeclared
  obtain rfl := hnone fun body hmem => by simp [thenChanged] at hmem
  exact ⟨hblock, (hblocks _ hblock).2, hdeclared, hf', hfunction, (hfunctions _ hfunction).2⟩

end SeedCorpus
