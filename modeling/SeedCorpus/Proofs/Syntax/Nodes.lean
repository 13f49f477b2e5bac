/-
  Trees that are made of certain nodes.

  A statement is made of certain nodes (`Stmt.MadeOf`) if something holds of every expression in it and something of every
  statement, itself among them.  What is said of a node looks at the node alone: at the names, the sign or the text that it
  holds.  So conditions on whole trees are written down without recursion, and they come apart with the tree, one lemma for
  each kind of statement.

  The conditions in use are that handles stand for the same texts in two registries, that no line ends in a text, that texts
  are neat, and that names are known.  Rendering is looked at four times by an induction on trees, each time under one of
  these, and none of the four inductions has to say how a condition comes down to the children.
-/
import SeedCorpus.Proofs.Syntax.Parts

namespace SeedCorpus

/-- Something holds of every expression in a statement and something of every statement in it. -/
structure Stmt.MadeOf (P : Expr → Prop) (Q : Stmt → Prop) (s : Stmt) : Prop where
  /-- The expressions. -/
  parts : s.All P
  /-- The statements. -/
  steps : ∀ x ∈ s.steps, Q x

/-- All statements of a block are made of certain nodes. -/
def Block.MadeOf (P : Expr → Prop) (Q : Stmt → Prop) (b : Block) : Prop := ∀ s ∈ b, s.MadeOf P Q

section MadeOf

variable {P : Expr → Prop} {Q : Stmt → Prop} {condition value : Expr} {s start step : Stmt} {body other : Block}

theorem Stmt.self_mem_steps (s : Stmt) : s ∈ s.steps := by
  unfold Stmt.steps
  split <;> exact List.mem_cons_self

/-- So what holds of all of them holds of it. -/
theorem Stmt.MadeOf.self (h : s.MadeOf P Q) : Q s := h.steps s s.self_mem_steps

/-- For a block, the two conditions can be said of all nodes at once. -/
theorem Block.madeOf_iff : Block.MadeOf P Q body ↔ (∀ x ∈ blockParts body, P x) ∧ ∀ x ∈ blockSteps body, Q x := by
  rw [forall_blockParts]
  constructor
  · intro h
    refine ⟨fun s hs => (h s hs).parts, fun x hx => ?_⟩
    obtain ⟨s, hs, hstep⟩ := mem_blockSteps.mp hx
    exact (h s hs).steps x hstep
  · rintro ⟨hparts, hsteps⟩ s hs
    exact ⟨hparts s hs, fun x hx => hsteps x (mem_blockSteps.mpr ⟨s, hs, hx⟩)⟩

/-- What follows for each node follows for the whole. -/
theorem Stmt.MadeOf.mono {P' : Expr → Prop} {Q' : Stmt → Prop} (h : s.MadeOf P Q) (hP : ∀ x, P x → P' x)
    (hQ : ∀ x, Q x → Q' x) : s.MadeOf P' Q' where
  parts x hx := hP x (h.parts x hx)
  steps x hx := hQ x (h.steps x hx)

theorem Block.madeOf_cons : Block.MadeOf P Q (s :: body) ↔ s.MadeOf P Q ∧ Block.MadeOf P Q body := List.forall_mem_cons

/-- An assignment comes apart into its place, which counts as the expression that reads it, and its value. -/
theorem Stmt.MadeOf.assign {target : Place} {op : Option Operation} (h : (Stmt.assign target op value).MadeOf P Q) :
    target.toExpr.All P ∧ value.All P := Stmt.all_assign.mp h.parts

theorem Stmt.MadeOf.declare {type : ValueType} {declarator : Declarator}
    (h : (Stmt.declare type declarator value).MadeOf P Q) : value.All P := h.parts

theorem Stmt.MadeOf.effect (h : (Stmt.effect value).MadeOf P Q) : value.All P := h.parts

theorem Stmt.MadeOf.result (h : (Stmt.result value).MadeOf P Q) : value.All P := h.parts

/-- A loop comes apart into its condition and its body. -/
theorem Stmt.MadeOf.loop (h : (Stmt.loop condition body).MadeOf P Q) : condition.All P ∧ Block.MadeOf P Q body := by
  obtain ⟨hcondition, hbody⟩ := Stmt.all_loop.mp h.parts
  exact ⟨hcondition, Block.madeOf_iff.mpr
    ⟨forall_blockParts.mpr hbody, fun x hx => h.steps x (List.mem_cons_of_mem _ hx)⟩⟩

theorem Stmt.MadeOf.whenever (h : (Stmt.branch condition body none).MadeOf P Q) :
    condition.All P ∧ Block.MadeOf P Q body := by
  obtain ⟨hcondition, hbody⟩ := Stmt.all_whenever.mp h.parts
  exact ⟨hcondition, Block.madeOf_iff.mpr
    ⟨forall_blockParts.mpr hbody, fun x hx => h.steps x (List.mem_cons_of_mem _ hx)⟩⟩

/-- One with an alternative has two blocks. -/
theorem Stmt.MadeOf.branch (h : (Stmt.branch condition body (some other)).MadeOf P Q) :
    condition.All P ∧ Block.MadeOf P Q body ∧ Block.MadeOf P Q other := by
  -- both lists are put together from those of the children, in the order of the text
  have hparts : ∀ x ∈ condition.parts ++ blockParts body ++ blockParts other, P x := h.parts
  have hsteps : ∀ x ∈ blockSteps body ++ blockSteps other, Q x := fun x hx => h.steps x (List.mem_cons_of_mem _ hx)
  simp only [List.forall_mem_append] at hparts hsteps
  exact ⟨hparts.1.1, Block.madeOf_iff.mpr ⟨hparts.1.2, hsteps.1⟩, Block.madeOf_iff.mpr ⟨hparts.2, hsteps.2⟩⟩

/-- The condition is made of such nodes either way. -/
theorem Stmt.MadeOf.branchCondition {alternative : Option Block} (h : (Stmt.branch condition body alternative).MadeOf P Q) :
    condition.All P := by
  cases alternative with
  | none => exact h.whenever.1
  | some other => exact h.branch.1

/-- A counting loop comes apart into the two statements in its header, its condition and its body. -/
theorem Stmt.MadeOf.count (h : (Stmt.count start condition step body).MadeOf P Q) :
    start.MadeOf P Q ∧ condition.All P ∧ step.MadeOf P Q ∧ Block.MadeOf P Q body := by
  obtain ⟨hstart, hcondition, hstep, hbody⟩ := Stmt.all_count.mp h.parts
  have hsteps : ∀ x ∈ start.steps ++ step.steps ++ blockSteps body, Q x :=
    fun x hx => h.steps x (List.mem_cons_of_mem _ hx)
  simp only [List.forall_mem_append] at hsteps
  exact ⟨⟨hstart, hsteps.1.1⟩, hcondition, ⟨hstep, hsteps.1.2⟩,
    Block.madeOf_iff.mpr ⟨forall_blockParts.mpr hbody, hsteps.2⟩⟩

end MadeOf

end SeedCorpus
