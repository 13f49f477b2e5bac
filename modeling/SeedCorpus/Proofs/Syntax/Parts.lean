/-
  What occurs in a tree.

  `Expr.parts` lists an expression and all expressions in it, `Stmt.parts` and `blockParts` all expressions in a statement
  or a block, however deep: conditions, headers of loops, arguments and indices.  A place counts as the expression that
  reads it.  So it can be said that something holds of all that occurs in a tree (`Expr.All`, `Stmt.All`), and this comes
  apart with the tree.  `Stmt.steps` and `blockSteps` list the statements in the same way.

  The functions of generated programs are made in an idiom.  If an idiom says nothing but what is allowed, then nothing
  else occurs in a function or in `main` (`Idiom.Allows`, `Assembly.MadeFrom.allows`).
-/
import SeedCorpus.Proofs.Synthesis.Moves

namespace SeedCorpus

/-! ## Parts

Both lists follow the recursion of trees.  An element of an array is an expression with one part, its index; the array itself
is named by a variable and is no part of its own. -/

mutual

/-- An expression and all expressions in it. -/
def Expr.parts : Expr → List Expr
  | .var v => [.var v]
  | .element base at_ => .element base at_ :: at_.parts
  | .int value => [.int value]
  | .literal text => [.literal text]
  | .binary lhs op rhs => .binary lhs op rhs :: (lhs.parts ++ rhs.parts)
  | .call callee args => .call callee args :: Expr.partsOfArgs args

/-- The expressions in the arguments of a call. -/
def Expr.partsOfArgs : List Expr → List Expr
  | [] => []
  | e :: rest => e.parts ++ Expr.partsOfArgs rest

end

mutual

/-- The expressions in a statement. -/
def Stmt.parts : Stmt → List Expr
  | .assign target _ value => target.toExpr.parts ++ value.parts
  | .declare _ _ value => value.parts
  | .branch condition body none => condition.parts ++ blockParts body
  | .branch condition body (some other) => condition.parts ++ blockParts body ++ blockParts other
  | .count start condition step body => start.parts ++ condition.parts ++ step.parts ++ blockParts body
  | .loop condition body => condition.parts ++ blockParts body
  | .result value => value.parts
  | .effect value => value.parts
  | .raw _ => []

/-- The expressions in a block. -/
def blockParts : List Stmt → List Expr
  | [] => []
  | s :: rest => s.parts ++ blockParts rest

end

mutual

/-- A statement and all statements in it. -/
def Stmt.steps : Stmt → List Stmt
  | .branch condition body none => .branch condition body none :: blockSteps body
  | .branch condition body (some other) => .branch condition body (some other) :: (blockSteps body ++ blockSteps other)
  | .count start condition step body => .count start condition step body :: (start.steps ++ step.steps ++ blockSteps body)
  | .loop condition body => .loop condition body :: blockSteps body
  | s => [s]

/-- The statements in a block. -/
def blockSteps : List Stmt → List Stmt
  | [] => []
  | s :: rest => s.steps ++ blockSteps rest

end

theorem Expr.self_mem_parts (e : Expr) : e ∈ e.parts := by
  cases e <;> simp [Expr.parts]

/-- The parts of arguments are the parts of each. -/
theorem mem_partsOfArgs {e : Expr} {args : List Expr} : e ∈ Expr.partsOfArgs args ↔ ∃ x ∈ args, e ∈ x.parts := by
  induction args with
  | nil => simp [Expr.partsOfArgs]
  | cons x args ih => simp [Expr.partsOfArgs, ih]

/-- The expressions in a block are those of its statements. -/
theorem mem_blockParts {e : Expr} {b : Block} : e ∈ blockParts b ↔ ∃ s ∈ b, e ∈ s.parts := by
  induction b with
  | nil => simp [blockParts]
  | cons s b ih => simp [blockParts, ih]

/-- And so are the statements in it. -/
theorem mem_blockSteps {step : Stmt} {b : Block} : step ∈ blockSteps b ↔ ∃ s ∈ b, step ∈ s.steps := by
  induction b with
  | nil => simp [blockSteps]
  | cons s b ih => simp [blockSteps, ih]

/-! ## What holds of all parts

One equation for each form of expression or statement, read from left to right when a condition is taken apart and from right
to left when it is put together. -/

/-- Something holds of an expression and of all expressions in it. -/
def Expr.All (P : Expr → Prop) (e : Expr) : Prop := ∀ x ∈ e.parts, P x

/-- Something holds of all expressions in a statement. -/
def Stmt.All (P : Expr → Prop) (s : Stmt) : Prop := ∀ x ∈ s.parts, P x

section All

variable {P : Expr → Prop} {e lhs rhs condition : Expr} {args : List Expr} {body : Block}

/-- What holds of all parts of an expression holds of itself. -/
theorem Expr.All.self (h : e.All P) : P e := h e e.self_mem_parts

theorem Expr.all_element {base : VarId} : (Expr.element base e).All P ↔ P (.element base e) ∧ e.All P := by
  simp [All, Expr.parts]

theorem Expr.all_binary {op : Operation} :
    (Expr.binary lhs op rhs).All P ↔ P (.binary lhs op rhs) ∧ lhs.All P ∧ rhs.All P := by
  simp [All, Expr.parts, or_imp, forall_and]

theorem Expr.all_call {callee : FuncId} : (Expr.call callee args).All P ↔ P (.call callee args) ∧ ∀ x ∈ args, x.All P := by
  simp only [All, Expr.parts, List.forall_mem_cons, mem_partsOfArgs]
  refine and_congr_right fun _ => ⟨fun h x hx y hy => h y ⟨x, hx, hy⟩, ?_⟩
  rintro h y ⟨x, hx, hy⟩
  exact h x hx y hy

theorem Stmt.all_assign {target : Place} {op : Option Operation} :
    (Stmt.assign target op e).All P ↔ target.toExpr.All P ∧ e.All P := by
  simp [All, Expr.All, Stmt.parts, or_imp, forall_and]

/-- Of all expressions in a block means of all in each of its statements. -/
theorem forall_blockParts : (∀ x ∈ blockParts body, P x) ↔ ∀ s ∈ body, s.All P := by
  simp only [mem_blockParts]
  refine ⟨fun h s hs x hx => h x ⟨s, hs, hx⟩, ?_⟩
  rintro h x ⟨s, hs, hx⟩
  exact h s hs x hx

theorem Stmt.all_loop : (Stmt.loop condition body).All P ↔ condition.All P ∧ ∀ s ∈ body, s.All P := by
  rw [← forall_blockParts]
  simp [All, Expr.All, Stmt.parts, or_imp, forall_and]

theorem Stmt.all_whenever : (Stmt.whenever condition body).All P ↔ condition.All P ∧ ∀ s ∈ body, s.All P := Stmt.all_loop

theorem Stmt.all_count {start step : Stmt} : (Stmt.count start condition step body).All P ↔
    start.All P ∧ condition.All P ∧ step.All P ∧ ∀ s ∈ body, s.All P := by
  rw [← forall_blockParts]
  simp [All, Expr.All, Stmt.parts, or_imp, forall_and]

end All

/-! ## What idioms allow

Whatever is to be shown of the expressions of a program can be shown of an idiom, once for what all programs are made of and
once for each of the five points in which they differ. -/

/-- Whether an expression by itself is a variable, a number or a binary operation. -/
def Expr.isPlain : Expr → Bool
  | .var _ | .int _ | .binary .. => true
  | _ => false

/-- All that an idiom says is allowed, if it reads from certain places only. -/
structure Idiom.Allows (i : Idiom) (size : Nat) (reads : Nat → Prop) (P : Expr → Prop) : Prop where
  /-- What all programs are made of. -/
  plain : ∀ e : Expr, e.isPlain → P e
  /-- Calls. -/
  call : ∀ callee < size, ∀ first : Expr, first.All P → (i.call callee first).All P
  /-- Values that are read. -/
  value : ∀ place, reads place → (i.value place).All P
  /-- Values that are stored. -/
  store : ∀ place < i.places, ∀ call : Expr, call.All P → (i.store place call).All P
  /-- The statements of `main` in front of the calls. -/
  prelude : ∀ values, ∀ s ∈ i.prelude values, s.All P

namespace Idiom.Allows

variable {i : Idiom} {size budget : Nat} {reads : Nat → Prop} {P : Expr → Prop}

/-- A variable is allowed wherever it stands. -/
theorem var (h : i.Allows size reads P) (v : VarId) : (Expr.var v).All P := by
  intro x hx
  obtain rfl := List.mem_singleton.mp hx
  exact h.plain _ rfl

theorem int (h : i.Allows size reads P) (n : Int) : (Expr.int n).All P := by
  intro x hx
  obtain rfl := List.mem_singleton.mp hx
  exact h.plain _ rfl

/-- A binary operation is allowed if its operands are. -/
theorem binary (h : i.Allows size reads P) {lhs rhs : Expr} (op : Operation) (hl : lhs.All P) (hr : rhs.All P) :
    (Expr.binary lhs op rhs).All P := Expr.all_binary.mpr ⟨h.plain _ rfl, hl, hr⟩

theorem isPositive (h : i.Allows size reads P) (v : VarId) : (SeedCorpus.isPositive v).All P :=
  h.binary _ (h.var v) (h.int 0)

/-- What is assigned to a variable. -/
theorem assigned (h : i.Allows size reads P) (v : VarId) (op : Option Operation) {e : Expr} (he : e.All P) :
    (Stmt.assign (.var v) op e).All P := Stmt.all_assign.mpr ⟨h.var v, he⟩

/-- A move that calls and reads within the limits holds nothing but what is allowed. -/
theorem move (h : i.Allows size reads P) {m : Move} (hm : m.Fits size i.places) (hr : ∀ place ∈ m.reads, reads place) :
    (m.stmt i).All P := by
  -- the argument of a call is the argument of the function, changed by a variable or a number
  have hcall : ∀ callee < size, ∀ (op : Operation) (e : Expr), e.All P →
      (i.call callee (.binary (.var argVar) op e)).All P := fun callee hc op e he =>
    h.call callee hc _ (h.binary op (h.var argVar) he)
  -- one case for each kind of move, and in each of them the condition first and then the one statement in the body
  cases m with
  | guardedCall callee =>
    refine Stmt.all_whenever.mpr ⟨h.isPositive argVar, fun s hs => ?_⟩
    obtain rfl := List.mem_singleton.mp hs
    exact h.assigned sumVar none (hcall callee hm _ _ (h.int 1))
  | countedLoop callee =>
    refine Stmt.all_count.mpr ⟨h.int 1, h.binary _ (h.var sumVar) (h.var counterVar),
      h.assigned counterVar _ (h.int 1), fun s hs => ?_⟩
    obtain rfl := List.mem_singleton.mp hs
    exact h.assigned sumVar _ (hcall callee hm _ _ (h.var counterVar))
  | conditionedLoop callee =>
    refine Stmt.all_loop.mpr ⟨h.isPositive i.guard, fun s hs => ?_⟩
    obtain rfl := List.mem_singleton.mp hs
    exact h.assigned sumVar _ (hcall callee hm _ _ (h.int 1))
  | read place => exact h.assigned sumVar _ (h.value place (hr place List.mem_cons_self))
  | write place callee =>
    refine Stmt.all_whenever.mpr ⟨h.isPositive argVar, fun s hs => ?_⟩
    obtain rfl := List.mem_singleton.mp hs
    exact h.store place hm.1 _ (hcall callee hm.2 _ _ (h.int 2))

/-- Nor does the body of a function. -/
theorem body (h : i.Allows size reads P) (number : Nat) {moves : List Move}
    (hm : ∀ m ∈ moves, m.Fits size i.places) (hr : ∀ m ∈ moves, ∀ place ∈ m.reads, reads place) :
    ∀ s ∈ i.body number moves, s.All P := by
  have hraw : ∀ text, (Stmt.raw text).All P := fun _ => nofun
  intro s hs
  simp only [Idiom.body, List.mem_append, List.mem_cons, List.mem_map, List.not_mem_nil, or_false] at hs
  rcases hs with ((rfl | rfl | rfl) | ⟨m, hmem, rfl⟩) | rfl
  · exact hraw _
  · exact hraw _
  · exact h.int 0
  · exact h.move (hm m hmem) (hr m hmem)
  · exact h.var sumVar

/-- Nor does the body of `main`. -/
theorem mainBody (h : i.Allows size reads P) (values : List Nat) {starts : List (Nat × Nat)}
    (hst : ∀ st ∈ starts, st.2 < size) : ∀ s ∈ i.mainBody values starts, s.All P := by
  intro s hs
  simp only [Idiom.mainBody, List.mem_append, List.mem_cons, List.cons_append, List.mem_map, List.not_mem_nil,
    or_false] at hs
  rcases hs with rfl | (hs | ⟨st, hst', rfl⟩) | rfl
  · exact h.int 0
  · exact h.prelude values s hs
  · exact h.assigned sumVar _ (h.call st.2 (hst st hst') _ (h.int st.1))
  · exact h.var sumVar

end Idiom.Allows

/-! ## What occurs in programs

`Assembly.Has` says that an expression occurs somewhere in the body of a function.  A program is made from a sketch, so what
occurs in it is found in a move, in the frame around the moves, or in `main`. -/

/-- The functions of a program, in the order of their definitions. -/
def Assembly.functions (a : Assembly) : List FuncId := a.helpers ++ a.tests ++ [a.main]

/-- An expression occurs in the body of a function. -/
def Assembly.Has (a : Assembly) (id : FuncId) (e : Expr) : Prop :=
  ∃ body, a.registry.bodyOf id = some body ∧ e ∈ blockParts body

namespace Assembly.MadeFrom

variable {a : Assembly} {i : Idiom} {size budget : Nat} {s : Sketch} {reads : Nat → Prop} {P : Expr → Prop}

/-- The bodies of the generated functions and of `main`. -/
theorem body_cases (h : a.MadeFrom i size budget s) {id : FuncId} (hid : id ∈ a.tests ++ [a.main]) {body : Block}
    (hbody : a.registry.bodyOf id = some body) :
    (∃ k < size, id = ⟨k⟩ ∧ body = i.body k (s.moves k)) ∨ (id = a.main ∧ body = i.mainBody s.values s.starts) := by
  rcases List.mem_append.mp hid with hid | hid
  · rw [h.tests] at hid
    obtain ⟨k, hk, rfl⟩ := List.mem_map.mp hid
    have hk := List.mem_range.mp hk
    rw [h.bodies k hk] at hbody
    exact Or.inl ⟨k, hk, rfl, (Option.some.inj hbody).symm⟩
  · obtain rfl := List.mem_singleton.mp hid
    rw [h.mainBody] at hbody
    exact Or.inr ⟨rfl, (Option.some.inj hbody).symm⟩

/-- In the generated functions and in `main` nothing occurs but what the idiom allows. -/
theorem allows (h : a.MadeFrom i size budget s) (hi : i.Allows size (· ∈ s.reads size) P) {id : FuncId}
    (hid : id ∈ a.tests ++ [a.main]) {e : Expr} (he : a.Has id e) : P e := by
  obtain ⟨body, hbody, he⟩ := he
  rcases h.body_cases hid hbody with ⟨k, hk, rfl, rfl⟩ | ⟨rfl, rfl⟩
  · refine forall_blockParts.mpr (hi.body k (h.fits.moves k hk).2 fun m hm place hp => ?_) e he
    rw [Move.mem_reads.mp hp] at hm
    exact Sketch.mem_reads.mpr ⟨k, hk, hm⟩
  · exact forall_blockParts.mpr (hi.mainBody s.values h.fits.starts.2) e he

/-- What is read occurs in a generated function. -/
theorem has_value (h : a.MadeFrom i size budget s) {place : Nat} (hp : place ∈ s.reads size) :
    ∃ id ∈ a.tests, a.Has id (i.value place) := by
  obtain ⟨k, hk, hm⟩ := Sketch.mem_reads.mp hp
  -- the move that reads stands between the first statements of the body and its last one
  refine ⟨⟨k⟩, ?_, _, h.bodies k hk, mem_blockParts.mpr ⟨(Move.read place).stmt i, ?_, ?_⟩⟩
  · rw [h.tests]
    exact List.mem_map_of_mem (List.mem_range.mpr hk)
  · exact List.mem_append_left _ (List.mem_append_right _ (List.mem_map_of_mem hm))
  · exact List.mem_append_right _ (Expr.self_mem_parts _)

end Assembly.MadeFrom

end SeedCorpus
