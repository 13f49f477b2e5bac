/-
  What a registry goes through.

  A registry changes by acts only (`Act`): types and operations are registered, variables and functions declared, and
  functions given a body.  No act changes the head of a function that is declared (`functionAt?_perform`).

  1. A call is checked once, when a registry gives it out (`Expr.IssuedBy`).  It has as many arguments as the function that
     it calls has parameters (`Expr.Suits`), and so it has in every later state of the registry (`suits_of_issued`).
  2. A registry develops into another by acts whose bodies hold calls that suit it (`Registry.Develops`).  Then all bodies
     hold calls that suit, if they did before (`Develops.sound`).
  3. Seen from outside, a history goes on by acts whose bodies hold calls that were given out (`GoesOn`).  That is the same
     (`GoesOn.develops`, `Develops.goesOn`), as a registry gives out the calls that suit it and no others
     (`issuedBy_iff_suits`).

  The reason for all of it is that ids are never used again and parameters never change.  So what was true of a callee when
  a call was made stays true, and a check that is made once need not be made again.
-/
import SeedCorpus.Proofs.Synthesis.Growth
import SeedCorpus.Proofs.Syntax.Parts

namespace SeedCorpus

/-! ## Acts

Every public way to change a registry is an act, and a history is a list of acts.  What holds of all histories is shown by
induction over such a list, with one case for each act, and most of the cases are that the act does not touch what one looks
at. -/

/-- An act that changes a registry. -/
inductive Act where
  /-- A type is registered. -/
  | registerType (key spelling : String)
  /-- An operation is registered. -/
  | registerOperation (key sign : String)
  /-- A variable is declared. -/
  | declareVariable (type : ValueType) (name : String)
  /-- A function is declared. -/
  | declareFunction (returnType : ValueType) (name : String) (params : List VarId)
  /-- A function is given a body. -/
  | setBody (id : FuncId) (body : Block)

namespace Registry

/-- The registry after an act. -/
def perform (r : Registry) : Act → Registry
  | .registerType key spelling => (r.registerType key spelling).2
  | .registerOperation key sign => (r.registerOperation key sign).2
  | .declareVariable type name => (r.declareVariable type name).2
  | .declareFunction returnType name params => (r.declareFunction returnType name params).2
  | .setBody id body => r.setBody id body

/-- The registry after acts, one after the other. -/
def after (r : Registry) (history : List Act) : Registry := history.foldl perform r

variable {r r' r'' : Registry} {id : FuncId} {f : Func} {act : Act}

/-- Acts in two rows are acts in one. -/
theorem after_append (r : Registry) (history later : List Act) : r.after (history ++ later) = (r.after history).after later :=
  List.foldl_append

/-- A function that is declared keeps its head through every act. -/
theorem functionAt?_perform (h : r.functionAt? id = some f) (act : Act) :
    ∃ body, (r.perform act).functionAt? id = some { f with body } := by
  -- three acts do not touch the functions, one puts a function behind them, and one changes a body
  cases act with
  | registerType key spelling => exact ⟨f.body, h⟩
  | registerOperation key sign => exact ⟨f.body, h⟩
  | declareVariable type name => exact ⟨f.body, h⟩
  | declareFunction returnType name params => exact ⟨f.body, functionAt?_declareFunction h returnType name params⟩
  | setBody other body =>
    by_cases he : id = other
    · subst he
      exact ⟨some body, functionAt?_setBody_self h body⟩
    · exact ⟨f.body, (functionAt?_setBody_ne he r body).trans h⟩

/-- No act takes a function back. -/
theorem size_le_perform (r : Registry) (act : Act) : r.functions.size ≤ (r.perform act).functions.size := by
  -- functions are put behind the others or changed in place, never taken out
  cases act with
  | registerType key spelling => exact Nat.le_refl _
  | registerOperation key sign => exact Nat.le_refl _
  | declareVariable type name => exact Nat.le_refl _
  | declareFunction returnType name params => exact Nat.le_trans (Nat.le_succ _) (Nat.le_of_eq (Array.size_push _).symm)
  | setBody id body => exact Nat.le_of_eq Array.size_modify.symm

/-- A body comes from the act, or it was there before. -/
theorem bodyOf_perform {body : Block} (h : (r.perform act).bodyOf id = some body) :
    r.bodyOf id = some body ∨ act = .setBody id body := by
  cases act with
  | registerType key spelling => exact Or.inl h
  | registerOperation key sign => exact Or.inl h
  | declareVariable type name => exact Or.inl h
  | declareFunction returnType name params =>
    left
    obtain ⟨fn, hfn, hbody⟩ := Option.bind_eq_some_iff.mp h
    have hpush : (r.functions.push { returnType, name := (r.symbols.intern name).1, params })[id.index]? = some fn := hfn
    rw [Array.getElem?_push] at hpush
    split at hpush
    · -- the function that is declared has no body
      obtain rfl := Option.some.inj hpush
      cases hbody
    · exact Option.bind_eq_some_iff.mpr ⟨fn, hpush, hbody⟩
  | setBody other given =>
    -- only a body for this function matters
    by_cases he : id = other
    · subst he
      right
      obtain ⟨fn, hfn, hbody⟩ := Option.bind_eq_some_iff.mp h
      -- the function is there, as a body was found; without it there is none
      cases hf : r.functionAt? id with
      | none =>
        have hgone : (r.functions.modify id.index ({ · with body := some given }))[id.index]? = some fn := hfn
        rw [Array.getElem?_modify, if_pos rfl] at hgone
        have hnone : r.functions[id.index]? = none := hf
        rw [hnone] at hgone
        cases hgone
      | some f =>
        have hself := (functionAt?_setBody_self hf given).symm.trans hfn
        obtain rfl := Option.some.inj hself
        obtain rfl := Option.some.inj hbody
        rfl
    · left
      rw [perform, bodyOf_setBody_ne he] at h
      exact h

end Registry

/-! ## Calls that suit

Two ways to say that a call is right.  `IssuedBy` is about the past: somebody asked the registry, and it said yes.  `Suits`
is about the present: the callee is there and has that many parameters.  The first is what a caller can promise, the second
is what can be checked by looking. -/

/-- If the expression is a call, then it has as many arguments as the function that it calls has parameters. -/
def Expr.Suits (r : Registry) : Expr → Prop
  | .call callee args => ∃ f, r.functionAt? callee = some f ∧ args.length = f.params.length
  | _ => True

/-- If the expression is a call, then the registry gave it out at some time of its history, when the function that it calls
was declared. -/
def Expr.IssuedBy (r : Registry) (history : List Act) : Expr → Prop
  | .call callee args => ∃ early late, history = early ++ late ∧ ((r.after early).functionAt? callee).isSome ∧
      (r.after early).call callee args = .ok (.call callee args)
  | _ => True

section Suits

variable {r : Registry} {history : List Act} {e : Expr} {callee : FuncId} {args : List Expr}

/-- A call that a registry gives out suits it. -/
theorem Registry.suits_of_call (hf : (r.functionAt? callee).isSome) (h : r.call callee args = .ok e) :
    e = .call callee args ∧ e.Suits r := by
  obtain ⟨f, hf⟩ := Option.isSome_iff_exists.mp hf
  have harity : r.arity callee = f.params.length := by
    rw [arity, hf]
    rfl
  unfold Registry.call at h
  -- the registry compares the number of arguments with the arity, and for a function that is there this is the number of
  -- parameters
  split at h
  · rename_i hlength
    cases h
    exact ⟨rfl, f, hf, hlength.trans harity⟩
  · cases h

/-- A call with arguments is given out for a function that is declared. -/
theorem Registry.isSome_of_call (hargs : args ≠ []) (h : r.call callee args = .ok e) :
    (r.functionAt? callee).isSome := by
  unfold Registry.call at h
  split at h
  · rename_i hlength
    -- an id without a function would pass for one without parameters, and these arguments are too many for that
    cases hf : r.functionAt? callee with
    | some f => rfl
    | none =>
      rw [arity, hf] at hlength
      exact absurd (List.length_eq_zero_iff.mp hlength) hargs
  · cases h

/-- A call that suits goes on to suit through every act: heads stay. -/
theorem Expr.Suits.perform (h : e.Suits r) (act : Act) : e.Suits (r.perform act) := by
  cases e with
  | call callee args =>
    obtain ⟨f, hf, hlength⟩ := h
    obtain ⟨body, hf'⟩ := Registry.functionAt?_perform hf act
    exact ⟨_, hf', hlength⟩
  | _ => trivial

/-- A call that suits goes on to suit through any history. -/
theorem Expr.Suits.after (later : List Act) : ∀ {r : Registry}, e.Suits r → e.Suits (r.after later) := by
  induction later with
  | nil => exact fun h => h
  | cons act later ih => exact fun h => ih (h.perform act)

/-- A call that was given out suits the registry then and later. -/
theorem suits_of_issued (h : e.IssuedBy r history) (later : List Act) : e.Suits (r.after (history ++ later)) := by
  cases e with
  | call callee args =>
    obtain ⟨early, late, rfl, hdeclared, hcall⟩ := h
    rw [List.append_assoc, Registry.after_append]
    exact (Registry.suits_of_call hdeclared hcall).2.after (late ++ later)
  | _ => trivial

/-- A registry gives out the calls that suit it, and no others have been given out before. -/
theorem issuedBy_iff_suits : e.IssuedBy r history ↔ e.Suits (r.after history) := by
  constructor
  · intro h
    have hsuits := suits_of_issued h []
    rwa [List.append_nil] at hsuits
  · intro h
    cases e with
    | call callee args =>
      obtain ⟨f, hf, hlength⟩ := h
      -- if the call suits now, then the registry gives it out now, at the end of its history
      refine ⟨history, [], (List.append_nil _).symm, Option.isSome_iff_exists.mpr ⟨f, hf⟩, ?_⟩
      have harity : (r.after history).arity callee = f.params.length := by
        rw [Registry.arity, hf]
        rfl
      rw [Registry.call, if_pos (hlength.trans harity.symm)]
    | _ => trivial

end Suits

/-! ## Registries that develop

The relation has a last act and not a first one, so that it grows at the end like a history does.  The condition on an act is
asked of the registry as it is before the act. -/

/-- If the act gives a body, then the calls in it suit the registry. -/
def Act.IsSound (r : Registry) : Act → Prop
  | .setBody _ body => ∀ e ∈ blockParts body, e.Suits r
  | _ => True

namespace Registry

/-- The calls in all bodies suit the registry. -/
def Sound (r : Registry) : Prop := ∀ id body, r.bodyOf id = some body → ∀ e ∈ blockParts body, e.Suits r

/-- The registry becomes another one by acts whose bodies hold calls that suit. -/
inductive Develops : Registry → Registry → Prop where
  /-- Nothing happens. -/
  | refl (r : Registry) : Develops r r
  /-- One more act. -/
  | step {r r' : Registry} {act : Act} : Develops r r' → act.IsSound r' → Develops r (r'.perform act)

variable {r r' r'' : Registry} {id : FuncId} {f : Func} {e : Expr}

/-- One act is a development, if the body that it gives is right. -/
theorem Develops.act (act : Act) (h : act.IsSound r) : r.Develops (r.perform act) := .step (.refl r) h

/-- Developments in a row are one. -/
theorem Develops.trans (h : r.Develops r') (h' : r'.Develops r'') : r.Develops r'' := by
  induction h' with
  -- by induction on the second one, whose last act is the last act of both
  | refl => exact h
  | step _ hact ih => exact .step ih hact

/-- Calls that suit go on to suit. -/
theorem Develops.suits (h : r.Develops r') (he : e.Suits r) : e.Suits r' := by
  induction h with
  | refl => exact he
  | step _ _ ih => exact ih.perform _

/-- A function that is declared keeps its parameters. -/
theorem Develops.functionAt? (h : r.Develops r') (hf : r.functionAt? id = some f) :
    ∃ f', r'.functionAt? id = some f' ∧ f'.params = f.params := by
  induction h with
  | refl => exact ⟨f, hf, rfl⟩
  | step _ _ ih =>
    obtain ⟨f', hf', hparams⟩ := ih
    obtain ⟨body, hbody⟩ := functionAt?_perform hf' _
    exact ⟨_, hbody, hparams⟩

theorem Develops.size_le (h : r.Develops r') : r.functions.size ≤ r'.functions.size := by
  induction h with
  | refl => exact Nat.le_refl _
  | step _ _ ih => exact Nat.le_trans ih (size_le_perform _ _)

/-- The calls in all bodies go on to suit. -/
theorem Develops.sound (h : r.Develops r') (hr : r.Sound) : r'.Sound := by
  induction h with
  | refl => exact hr
  | step _ hact ih =>
    intro id body hbody e he
    -- a body is an old one, whose calls suited already, or the one that was just given, whose calls suit as the act was
    -- right
    rcases bodyOf_perform hbody with hbefore | rfl
    · exact (ih id body hbefore e he).perform _
    · exact (hact e he).perform _

/-- At the start of a run no function has a body yet, so there is no call to look at. -/
theorem withCTypes_sound : withCTypes.Sound := nofun

end Registry

/-! ## Histories that go on

  A registry that develops is a history that goes on: the registries are those after the acts, and that the calls suit is
  that they have been given out (`issuedBy_iff_suits`).  The first view is the one that proofs take, as it asks for nothing but
  the registry as it stands; the second one says what a caller of the registry can see. -/

/-- All calls in a block were given out by a registry at some time of its history. -/
def Block.IssuedBy (r : Registry) (history : List Act) (b : Block) : Prop := ∀ e ∈ blockParts b, e.IssuedBy r history

/-- A history goes on by acts; the bodies that are given are those that `gives` admits, after the acts up to then. -/
inductive GoesOn (gives : List Act → Block → Prop) : List Act → List Act → Prop where
  /-- Nothing happens. -/
  | refl (history : List Act) : GoesOn gives history history
  /-- One more act. -/
  | step {history later : List Act} {act : Act} : GoesOn gives history later →
    (∀ id body, act = .setBody id body → gives later body) → GoesOn gives history (later ++ [act])

section GoesOn

variable {r r' : Registry} {gives : List Act → Block → Prop} {history later last : List Act} {id : FuncId} {f : Func}

/-- What has been given out is what suits, for all expressions at once. -/
theorem issuedBy_eq_suits (r : Registry) (history : List Act) : Expr.IssuedBy r history = Expr.Suits (r.after history) :=
  funext fun _ => propext issuedBy_iff_suits

/-- Histories that go on in a row are one. -/
theorem GoesOn.trans (h : GoesOn gives history later) (h' : GoesOn gives later last) : GoesOn gives history last := by
  induction h' with
  | refl => exact h
  | step _ hgives ih => exact .step ih hgives

theorem GoesOn.act {act : Act} (h : ∀ id body, act ≠ .setBody id body) : GoesOn gives history (history ++ [act]) :=
  .step (.refl history) fun id body he => absurd he (h id body)

/-- One more act at the end of a history. -/
theorem Registry.after_concat (r : Registry) (history : List Act) (act : Act) :
    r.after (history ++ [act]) = (r.after history).perform act := after_append r history [act]

/-- A function that is declared keeps its parameters, whatever bodies are given. -/
theorem GoesOn.functionAt? (h : GoesOn gives history later) (hf : (r.after history).functionAt? id = some f) :
    ∃ f', (r.after later).functionAt? id = some f' ∧ f'.params = f.params := by
  induction h with
  | refl => exact ⟨f, hf, rfl⟩
  | step _ _ ih =>
    obtain ⟨f', hf', hparams⟩ := ih
    obtain ⟨body, hbody⟩ := Registry.functionAt?_perform hf' _
    rw [Registry.after_concat]
    exact ⟨_, hbody, hparams⟩

/-- If all bodies hold calls that were given out, then the registry develops. -/
theorem GoesOn.develops (h : GoesOn (Block.IssuedBy r) history later) : (r.after history).Develops (r.after later) := by
  induction h with
  | refl => exact .refl _
  | @step later act _ hgives ih =>
    rw [Registry.after_concat]
    refine .step ih ?_
    -- only a body has calls in it, and those were given out, which is to say that they suit
    cases act with
    | setBody id body => exact fun e he => issuedBy_iff_suits.mp (hgives id body rfl e he)
    | _ => trivial

/-- A registry that develops has a history that goes on. -/
theorem Registry.Develops.goesOn (h : (r.after history).Develops r') :
    ∃ later, GoesOn (Block.IssuedBy r) history later ∧ r' = r.after later := by
  induction h with
  | refl => exact ⟨history, .refl history, rfl⟩
  | @step _ act _ hact ih =>
    obtain ⟨later, hlater, rfl⟩ := ih
    -- the act is put at the end of the history that is there by then
    refine ⟨later ++ [act], .step hlater fun id body he => ?_, (Registry.after_concat r later act).symm⟩
    subst he
    exact fun e hmem => issuedBy_iff_suits.mpr (hact e hmem)

end GoesOn

end SeedCorpus
