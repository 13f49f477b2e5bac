/-
  The array that the functions of a program share.

  1. **What is written down.**  In the functions of a program that shares an array, an access goes to an element of `arr` by a
     number below the length of the array, a call hands `arr` over as its second argument (`ArrayBacked.allows`), and
     `arr` is set nowhere but where `main` declares it (`ArrayBacked.body_sets`, `ArrayBacked.mainBody_sets`).

  2. **What it stands for.**  A variable stands for an array of the activation that it belongs to, if the function declares
     one, or for that of the argument that was handed over for it (`Assembly.enter`).  So along every chain of calls from `main`
     on, `arr` stands for the array of `main` (`ArrayBacked.activation_arr`, by induction over the chain).

  So every access of every activation goes to the array of `main`, and inside it (`generate_sharesArray`).
-/
import SeedCorpus.Proofs.Rendering.Programs
import SeedCorpus.Proofs.Syntax.Parts

namespace SeedCorpus

open SeedCorpus.Random (Source)

/-! ## Activations

Programs are not run here.  What is followed is which function is called from which, with which arguments; that is enough to
know what a parameter stands for if it stands for an array. -/

/-- A variable is set by a statement: it gets a value or is declared. -/
def Stmt.Sets (v : VarId) : Stmt → Prop
  | .assign (.var w) _ _ => w = v
  | .declare _ declarator _ => declarator.variable = v
  | _ => False

/-- A statement declares an array under a variable. -/
def Stmt.declaresArray (v : VarId) : Stmt → Bool
  | .declare _ (.array w) _ => w = v
  | _ => false

/-- An array of a running program: that of a variable of the activation which declares it. -/
structure OwnArray where
  /-- How many calls lead to the activation. -/
  depth : Nat
  /-- The variable. -/
  declared : VarId
deriving DecidableEq, Repr

/-- What the variables of an activation stand for, as far as they stand for arrays. -/
abbrev Arrays := VarId → Option OwnArray

namespace Assembly

/-- The parameters of a function. -/
def paramsOf (a : Assembly) (id : FuncId) : List VarId := ((a.registry.functionAt? id).map (·.params)).getD []

/-- The variables of an activation stand for arrays of its own, if the function declares them, and otherwise for what the
arguments stand for that were handed over for them. -/
def enter (a : Assembly) (depth : Nat) (id : FuncId) (args : List Expr) (outer : Arrays) : Arrays := fun v =>
  if (a.registry.bodyOf id).any fun body => (blockSteps body).any (Stmt.declaresArray v) then some ⟨depth, v⟩
  else
    match ((a.paramsOf id).zip args).lookup v with
    | some (.var w) => outer w
    | _ => none

/-- The activations of a program: that of `main`, and those that calls in activations lead to. -/
inductive Activation (a : Assembly) : Nat → FuncId → Arrays → Prop
  /-- The program begins. -/
  | start : Activation a 0 a.main (a.enter 0 a.main [] fun _ => none)
  /-- A function is called that a call in the function names. -/
  | call {depth id arrays callee args} (outer : Activation a depth id arrays) (occurs : a.Has id (.call callee args)) :
    Activation a (depth + 1) callee (a.enter (depth + 1) callee args arrays)

open SeedCorpus.ArrayBacked in
/-- The functions of a program share an array that `main` declares, and stay inside it. -/
structure SharesArray (a : Assembly) (arr : VarId) (size : Nat) : Prop where
  /-- The name of the array. -/
  named : a.registry.variableName arr = "arr"
  /-- It is the second parameter of the generated functions. -/
  param : ∀ id ∈ a.tests, ∃ arg, a.paramsOf id = [arg, arr]
  /-- In `main` it gets as many values as the square of the number of functions, and none above that; the functions are called with
  numbers that are not above it either. -/
  main : ∃ values starts : List Nat, ∃ callees : List FuncId, values.length = size * size ∧
    (∀ v ∈ values, v ≤ size * size) ∧ starts.length = size ∧ (∀ n ∈ starts, n ≤ size * size) ∧
    callees.length = size ∧ (∀ id ∈ callees, id ∈ a.tests) ∧
    a.registry.bodyOf a.main = some ([.scalar intType sumVar (.int 0),
      .declare intType (.array arr) (.literal ("\x7b" ++ ", ".intercalate (values.map toString) ++ "\x7d"))] ++
      List.zipWith (fun (n : Nat) id => .update sumVar cOperators.plus (.call id [.int n, .var arr])) starts callees ++
      [.result (.var sumVar)])
  /-- It is set nowhere else. -/
  constant : ∀ id ∈ a.functions, ∀ body, a.registry.bodyOf id = some body → ∀ s ∈ blockSteps body, s.Sets arr →
    id = a.main ∧ ∃ type value, s = .declare type (.array arr) value
  /-- Every access goes to an element of it, by a number below its length. -/
  accesses : ∀ id ∈ a.functions, ∀ base at_, a.Has id (.element base at_) →
    base = arr ∧ ∃ k < size * size, at_ = .int (k : Nat)
  /-- Every call is one of a generated function and hands it over. -/
  calls : ∀ id ∈ a.functions, ∀ callee args, a.Has id (.call callee args) →
    callee ∈ a.tests ∧ ∃ first, args = [first, .var arr]
  /-- So in every activation it stands for the array of `main`. -/
  shared : ∀ depth id arrays, a.Activation depth id arrays → id ∈ a.functions ∧ arrays arr = some ⟨0, arr⟩

/-- Every access of every activation goes to the array of `main`, and it goes inside. -/
theorem SharesArray.inside {a : Assembly} {arr : VarId} {size : Nat} (h : a.SharesArray arr size) {depth : Nat}
    {id : FuncId} {arrays : Arrays} (hact : a.Activation depth id arrays) {base : VarId} {at_ : Expr}
    (hhas : a.Has id (.element base at_)) : arrays base = some ⟨0, arr⟩ ∧ ∃ k < size * size, at_ = .int (k : Nat) := by
  -- an access in the activation is one in the function, so it goes to `arr`, which stands for the array of `main`
  obtain ⟨hid, harr⟩ := h.shared depth id arrays hact
  obtain ⟨rfl, hinside⟩ := h.accesses id hid base at_ hhas
  exact ⟨harr, hinside⟩

end Assembly

namespace ArrayBacked

/-! ## What is written down

`Speech` is carried from the statements to the functions of a run by `Idiom.Allows`.  That the array is set nowhere is looked
up statement by statement, as there are few kinds. -/

/-- What may occur: accesses of the array inside its length, and calls of generated functions that hand it over. -/
def Speech (size : Nat) : Expr → Prop
  | .element base at_ => base = arrVar ∧ ∃ k < size * size, at_ = .int (k : Nat)
  | .call callee args => (∃ k < size, callee = ⟨k⟩) ∧ ∃ first, args = [first, .var arrVar]
  | _ => True

/-- An access inside the length may occur. -/
theorem speech_element {size place : Nat} (h : place < size * size) :
    (Expr.element arrVar (.int place)).All (Speech size) :=
  Expr.all_element.mpr ⟨⟨rfl, place, h, rfl⟩, fun x hx => by
    obtain rfl := List.mem_singleton.mp hx
    trivial⟩

/-- Nothing else occurs in programs that share an array. -/
theorem allows {size : Nat} {reads : Nat → Prop} (hr : ∀ place, reads place → place < size * size) :
    (arrayIdiom size).Allows size reads (Speech size) where
  plain e he := by
    cases e with
    | element base at_ => cases he
    | call callee args => cases he
    | _ => trivial
  call callee hc first hf := by
    refine Expr.all_call.mpr ⟨⟨⟨callee, hc, rfl⟩, first, rfl⟩, fun x hx => ?_⟩
    rcases List.mem_cons.mp hx with rfl | hx
    · exact hf
    · obtain rfl := List.mem_singleton.mp hx
      intro y hy
      obtain rfl := List.mem_singleton.mp hy
      trivial
  value place hp := speech_element (hr place hp)
  store place hp call hc := Stmt.all_assign.mpr ⟨speech_element hp, hc⟩
  prelude values s hs := by
    obtain rfl := List.mem_singleton.mp hs
    intro x hx
    obtain rfl := List.mem_singleton.mp hx
    trivial

/-- No drawn statement sets the array. -/
theorem move_sets (size : Nat) (m : Move) : ∀ s ∈ (m.stmt (arrayIdiom size)).steps, ¬ s.Sets arrVar := by
  have hsum : sumVar ≠ arrVar := by decide
  have hcounter : counterVar ≠ arrVar := by decide
  cases m <;>
    simp [Move.stmt, arrayIdiom, Stmt.whenever, Stmt.set, Stmt.update, Stmt.scalar, Stmt.steps, blockSteps, Stmt.Sets,
      Declarator.variable, hsum, hcounter]

/-- Nor does anything else in a generated function. -/
theorem body_sets (size number : Nat) (moves : List Move) :
    ∀ s ∈ blockSteps ((arrayIdiom size).body number moves), ¬ s.Sets arrVar := by
  have hsum : sumVar ≠ arrVar := by decide
  intro s hs
  obtain ⟨top, htop, hs⟩ := mem_blockSteps.mp hs
  simp only [Idiom.body, List.mem_append, List.mem_cons, List.mem_map, List.not_mem_nil, or_false] at htop
  -- what stands around the moves sets the sum at most
  rcases htop with ((rfl | rfl | rfl) | ⟨m, -, rfl⟩) | rfl
  · obtain rfl := List.mem_singleton.mp hs
    exact id
  · obtain rfl := List.mem_singleton.mp hs
    exact id
  · obtain rfl := List.mem_singleton.mp hs
    exact hsum
  · exact move_sets size m s hs
  · obtain rfl := List.mem_singleton.mp hs
    exact id

/-- In `main` the array is set where it is declared. -/
theorem mainBody_sets {size : Nat} {values : List Nat} {starts : List (Nat × Nat)} {s : Stmt}
    (hs : s ∈ blockSteps ((arrayIdiom size).mainBody values starts)) (hsets : s.Sets arrVar) :
    s = .declare intType (.array arrVar) (.literal (initializer values)) := by
  have hsum : sumVar ≠ arrVar := by decide
  obtain ⟨top, htop, hs⟩ := mem_blockSteps.mp hs
  simp only [Idiom.mainBody, arrayIdiom, List.mem_append, List.mem_cons, List.cons_append, List.nil_append, List.mem_map,
    List.not_mem_nil, or_false] at htop
  -- the sum, the array, the calls, and the return
  rcases htop with rfl | rfl | ⟨st, -, rfl⟩ | rfl
  · obtain rfl := List.mem_singleton.mp hs
    exact absurd hsets hsum
  · exact List.mem_singleton.mp hs
  · obtain rfl := List.mem_singleton.mp hs
    exact absurd hsets hsum
  · obtain rfl := List.mem_singleton.mp hs
    exact absurd hsets id

section Made

variable {a : Assembly} {size budget : Nat} {s : Sketch} {id : FuncId}

theorem functions_eq (h : a.MadeFrom (arrayIdiom size) size budget s) : a.functions = a.tests ++ [a.main] := by
  rw [Assembly.functions, h.helpers]
  rfl

/-- What occurs in a function. -/
theorem speech_of_has (h : a.MadeFrom (arrayIdiom size) size budget s) (hid : id ∈ a.functions) {e : Expr}
    (he : a.Has id e) : Speech size e := by
  rw [functions_eq h] at hid
  refine h.allows (allows fun place hp => ?_) hid he
  obtain ⟨k, hk, hm⟩ := Sketch.mem_reads.mp hp
  exact (h.fits.moves k hk).2 _ hm

/-! ## What it stands for

A variable that is declared in a function hides what the caller has handed over, so it matters that only `main` declares the
array. -/

/-- To declare an array under a variable is to set the variable. -/
theorem sets_of_declaresArray {v : VarId} {step : Stmt} (h : step.declaresArray v) : step.Sets v := by
  unfold Stmt.declaresArray at h
  split at h
  · have he := of_decide_eq_true h
    exact he
  · cases h

/-- The generated functions have two parameters. -/
theorem paramsOf_test (h : a.MadeFrom (arrayIdiom size) size budget s) {k : Nat} (hk : k < size) :
    a.paramsOf ⟨k⟩ = [argVar, arrVar] := by
  obtain ⟨f, hf, -, -, hparams⟩ := h.ground.tests k hk
  rw [Assembly.paramsOf, hf]
  exact hparams

/-- In `main` the array is its own. -/
theorem enter_main (h : a.MadeFrom (arrayIdiom size) size budget s) (depth : Nat) (args : List Expr) (outer : Arrays) :
    a.enter depth a.main args outer arrVar = some ⟨depth, arrVar⟩ := by
  have hdeclared : (a.registry.bodyOf a.main).any fun body => (blockSteps body).any (Stmt.declaresArray arrVar) := by
    rw [h.mainBody]
    exact List.any_eq_true.mpr ⟨.declare intType (.array arrVar) (.literal (initializer s.values)),
      List.mem_cons_of_mem _ List.mem_cons_self, rfl⟩
  rw [Assembly.enter, if_pos hdeclared]

/-- In a generated function it is what is handed over for it. -/
theorem enter_test (h : a.MadeFrom (arrayIdiom size) size budget s) {k : Nat} (hk : k < size) (depth : Nat)
    (first : Expr) (outer : Arrays) :
    a.enter depth ⟨k⟩ [first, .var arrVar] outer arrVar = outer arrVar := by
  have hdeclared : ¬ (a.registry.bodyOf ⟨k⟩).any fun body => (blockSteps body).any (Stmt.declaresArray arrVar) := by
    rw [h.bodies k hk]
    intro hany
    obtain ⟨step, hstep, hdeclares⟩ := List.any_eq_true.mp hany
    exact body_sets size k (s.moves k) step hstep (sets_of_declaresArray hdeclares)
  rw [Assembly.enter, if_neg hdeclared, paramsOf_test h hk]
  rfl

/-- **In every activation the array is that of `main`**, as every call hands on what it was handed. -/
theorem activation_arr (h : a.MadeFrom (arrayIdiom size) size budget s) {depth : Nat} {arrays : Arrays}
    (hact : a.Activation depth id arrays) : id ∈ a.functions ∧ arrays arrVar = some ⟨0, arrVar⟩ := by
  induction hact with
  | start =>
    refine ⟨?_, enter_main h 0 [] _⟩
    rw [functions_eq h]
    exact List.mem_append_right _ List.mem_cons_self
  | call outer occurs ih =>
    obtain ⟨hid, harr⟩ := ih
    -- whatever is called is a generated function, and it gets the array that its caller has
    obtain ⟨⟨k, hk, rfl⟩, first, rfl⟩ := speech_of_has h hid occurs
    refine ⟨?_, (enter_test h hk _ first _).trans harr⟩
    rw [functions_eq h, h.tests]
    exact List.mem_append_left _ (List.mem_map_of_mem (List.mem_range.mpr hk))

/-! ## Programs

All parts hold of the functions of a sketch; and every run comes to one. -/

theorem test_mem (h : a.MadeFrom (arrayIdiom size) size budget s) {k : Nat} (hk : k < size) : (⟨k⟩ : FuncId) ∈ a.tests := by
  rw [h.tests]
  exact List.mem_map_of_mem (List.mem_range.mpr hk)

/-- The functions of a sketch share the array, and stay inside it. -/
theorem sharesArray (h : a.MadeFrom (arrayIdiom size) size budget s) (hb : s.Bounded size) :
    a.SharesArray arrVar size where
  named := (has_arr h.ground).variableName
  param id hid := by
    rw [h.tests] at hid
    obtain ⟨k, hk, rfl⟩ := List.mem_map.mp hid
    exact ⟨argVar, paramsOf_test h (List.mem_range.mp hk)⟩
  main := by
    refine ⟨s.values, s.starts.map (·.1), s.starts.map fun st => ⟨st.2⟩, h.fits.values, hb.values, ?_, ?_, ?_, ?_, ?_⟩
    · rw [List.length_map, h.fits.starts.1]
    · intro n hn
      obtain ⟨st, hst, rfl⟩ := List.mem_map.mp hn
      exact hb.starts st hst
    · rw [List.length_map, h.fits.starts.1]
    · intro callee hcallee
      obtain ⟨st, hst, rfl⟩ := List.mem_map.mp hcallee
      exact test_mem h (h.fits.starts.2 st hst)
    · rw [h.mainBody, List.zipWith_map, List.zipWith_self]
      rfl
  constant id hid body hbody step hstep hsets := by
    -- the body is that of a generated function, or that of `main`
    rcases h.body_cases (functions_eq h ▸ hid) hbody with ⟨k, hk, rfl, rfl⟩ | ⟨rfl, rfl⟩
    · exact absurd hsets (body_sets size k _ step hstep)
    · exact ⟨rfl, _, _, mainBody_sets hstep hsets⟩
  accesses id hid base at_ hhas := speech_of_has h hid hhas
  calls id hid callee args hhas := by
    obtain ⟨⟨k, hk, rfl⟩, hargs⟩ := speech_of_has h hid hhas
    exact ⟨test_mem h hk, hargs⟩
  shared depth id arrays hact := activation_arr h hact

end Made

end ArrayBacked

/-- **The functions of every program that is made with an array share it, and no access goes outside.**  There are no input
files. -/
theorem generate_sharesArray (config : SynthesisConfig) (g : Source) (htree : config.strategy = .tree)
    (pos : 0 < config.functions) (fits : config.functions * config.functions < 2 ^ 63) :
    ∃ (a : Assembly) (texts : List String) (p : Program), config.assembly g = .ok a ∧
      sections a.registry a.tests a.helpers a.main = .ok texts ∧ generate config g = .ok p ∧
      p.source = joinSections texts ∧ a.tests.length = config.functions ∧
      a.SharesArray ArrayBacked.arrVar config.functions ∧
      (∀ depth id arrays, a.Activation depth id arrays → ∀ base at_, a.Has id (.element base at_) →
        arrays base = some ⟨0, ArrayBacked.arrVar⟩ ∧
          ∃ k < config.functions * config.functions, at_ = .int (k : Nat)) ∧
      p.auxFiles = [] := by
  obtain ⟨a, after, hact, sketch, hmade, hbounded⟩ := ArrayBacked.assembled config (g, ()) pos fits
  have hsections := hmade.sections_eq (ArrayBacked.idiom_namesRoles _) (ArrayBacked.wordedAs hmade.ground)
  have hshares := ArrayBacked.sharesArray hmade hbounded
  have hp := synthesize_eq hact hsections
  refine ⟨a, _, { source := _, auxFiles := [] }, ?_, hsections, ?_, rfl, ?_, hshares, fun _ _ _ hrun _ _ => hshares.inside hrun,
    rfl⟩
  · rw [SynthesisConfig.assembly, htree]
    exact outcome_of_eq hact
  · rw [generate, htree]
    exact outcome_of_eq hp
  · rw [hmade.tests, length_testIds]

/-- Two functions of three statements each, which read and write an array of four values. -/
def twoSharing : SynthesisConfig := { strategy := .tree, functions := 2, statements := some 3 }

/-- Such a program comes out and shares its array. -/
theorem twoSharing_sharesArray : ∃ (a : Assembly) (p : Program), twoSharing.assembly (.ofSeed 3) = .ok a ∧
    generate twoSharing (.ofSeed 3) = .ok p ∧ a.SharesArray ArrayBacked.arrVar 2 ∧ p.auxFiles = [] := by
  obtain ⟨a, _, p, ha, -, hp, -, -, hshares, -, hnone⟩ :=
    generate_sharesArray twoSharing (.ofSeed 3) rfl (by decide) (by decide)
  exact ⟨a, p, ha, hp, hshares, hnone⟩

end SeedCorpus
