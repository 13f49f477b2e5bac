/-
  Strategies that build on the registry of a run.

  Strategies come from anywhere, and little is asked of them.  They may refuse, and choose their parameters, arguments and
  helpers as they like.  But a call is nothing that they can make up: it is given out by the registry, which looks at the
  number of its arguments.

  1. A strategy declares by acts (`Strategy.DeclaresBy`): what it does to the registry of a run is what acts do.  Of the
     bodies that it gives on the way it can be asked that they are of some kind.
  2. It builds on the registry (`Strategy.BuildsOn`) if, besides, the registry has given out all calls that it hands out, at some
     time of the run (`Expr.IssuedBy`).  A call that it was handed counts as well, as that one was given out before.
  3. Both strategies of the library do so (`arrayBacked_buildsOn`, `fileBacked_buildsOn`), and need remember nothing for it.

  Proofs look at the registry as it stands: a call that was given out is a call that suits (`issued_eq`), and the history is
  only wanted to say who gave it out.
-/
import SeedCorpus.Proofs.Synthesis.History
import SeedCorpus.Proofs.Acts
import SeedCorpus.Synthesis.ArrayBacked
import SeedCorpus.Synthesis.FileBacked

namespace SeedCorpus

open SeedCorpus.Random (Source)

variable {σ X α β : Type}

/-! ## What acts bring about

`Brings` is partial: it says nothing of an act that refuses.  That is all that can be asked here, as any strategy may refuse
at any point.  It is the counterpart of `Gives` for strategies of which nothing else is known. -/

/-- If the act comes to a result, then the result has the property and the notes are still kept. -/
def Brings (keeps : σ → Prop) (act : EStateM SynthesisError (X × σ) α) (P : α → Prop) : Prop :=
  ∀ x notes a x' notes', keeps notes → act (x, notes) = .ok a (x', notes') → P a ∧ keeps notes'

section Brings

variable {keeps : σ → Prop} {P : α → Prop} {Q : β → Prop}

/-- Handing over a result that has the property. -/
theorem Brings.pure {a : α} (h : P a) : Brings (X := X) keeps (pure a) P := by
  rintro x notes b x' notes' hk hb
  cases hb
  exact ⟨h, hk⟩

/-- Acts in sequence bring about what the last one does, each starting with what the ones before it have brought. -/
theorem Brings.bind {act : EStateM SynthesisError (X × σ) α} {next : α → EStateM SynthesisError (X × σ) β}
    (h : Brings keeps act P) (hn : ∀ a, P a → Brings keeps (next a) Q) : Brings keeps (act >>= next) Q := by
  intro x notes b x'' notes'' hk hb
  -- the sequence came to a result, so that its first act did
  obtain ⟨a, ⟨x', notes'⟩, hact, hnext⟩ := bind_eq_ok.mp hb
  obtain ⟨ha, hk'⟩ := h x notes a x' notes' hk hact
  exact hn a ha x' notes' b x'' notes'' hk' hnext

/-- An answer that may be a refusal. -/
theorem Brings.orFail {answer : Except SynthesisError α} (h : ∀ a, answer = .ok a → P a) :
    Brings (X := X) keeps (orFail answer) P := by
  cases answer with
  | error e => exact nofun
  | ok a => exact .pure (h a rfl)

/-- A draw leaves the notes alone. -/
theorem Brings.draw (act : Source → α × Source) : Brings keeps (Drawing.draw act) fun _ => True := by
  rintro g notes a g' notes' hk h
  cases h
  exact ⟨trivial, hk⟩

/-- A draw below a bound leaves the notes alone, if it is made at all. -/
theorem Brings.below (n : Nat) : Brings keeps (Drawing.below n) fun _ => True := by
  unfold Drawing.below
  split
  · exact nofun
  · exact .draw _

theorem Brings.upTo (bound : Int) : Brings keeps (Drawing.upTo bound) fun _ => True := by
  unfold Drawing.upTo
  split
  · exact nofun
  · exact .draw _

/-- The notes as they stand, in front of other acts. -/
theorem Brings.notes_bind {next : σ → Drawing σ β} (h : ∀ notes, keeps notes → Brings keeps (next notes) Q) :
    Brings keeps (Drawing.notes >>= next) Q := fun g notes b g' notes' hk hb => h notes hk g notes b g' notes' hk hb

end Brings

/-! ## What is asked of strategies

The registry of a run is always that with the C types after some acts, so that the history stands for it.  A strategy may ask
the registry for calls and keep them in its notes for later; that is why what it remembers may depend on the history, and why
it has to stay right while the history goes on. -/

/-- The registry of a run after acts. -/
def Registry.ofRun (history : List Act) : Registry := withCTypes.after history

/-- If the expression is a call, then the registry of a run has given it out. -/
def Expr.Issued (history : List Act) : Expr → Prop := Expr.IssuedBy Registry.withCTypes history

/-- The registry of a run has given out all calls in a block. -/
def Block.Issued : List Act → Block → Prop := Block.IssuedBy Registry.withCTypes

/-- A strategy declares by acts: what it does to the registry of a run is to perform acts on it, and the bodies among them are
such as `gives` admits.  What it remembers may depend on the acts (`keeps`). -/
structure Strategy.DeclaresBy (s : Strategy σ) (gives : List Act → Block → Prop) (keeps : List Act → σ → Prop) : Prop where
  /-- What it remembers stays right while the run goes on. -/
  later : ∀ {history later notes}, GoesOn gives history later → keeps history notes → keeps later notes
  /-- It declares the roles by acts. -/
  roles : ∀ history notes roles r notes', keeps history notes →
    s.roles (.ofRun history, notes) = .ok roles (r, notes') →
    ∃ later, GoesOn gives history later ∧ r = .ofRun later ∧ keeps later notes'
  /-- It declares the helpers by acts. -/
  helpers : ∀ history notes ids r notes', keeps history notes →
    s.helpers (.ofRun history, notes) = .ok ids (r, notes') →
    ∃ later, GoesOn gives history later ∧ r = .ofRun later ∧ keeps later notes'

/-- A strategy builds on the registry of a run: it declares by acts, and the registry has given out all calls that it hands
out, earlier in the run or now.  The call that it is handed with a value to store has been given out as well. -/
structure Strategy.BuildsOn (s : Strategy σ) (keeps : List Act → σ → Prop) : Prop extends
    s.DeclaresBy Block.Issued keeps where
  /-- The calls in the arguments of a call. -/
  callArgs : ∀ history notes roles first, keeps history notes → first.All (Expr.Issued history) →
    ∀ e ∈ s.callArgs notes roles first, e.All (Expr.Issued history)
  /-- The calls in the condition of a conditional loop. -/
  loopGuard : ∀ history notes roles e, keeps history notes → s.loopGuard notes (.ofRun history) roles = .ok e →
    e.All (Expr.Issued history)
  /-- The calls in a statement that reads. -/
  read : ∀ history roles size,
    Brings (keeps history) (s.read (.ofRun history) roles size) fun st => st.All (Expr.Issued history)
  /-- The calls in a statement that writes. -/
  write : ∀ history roles call size, call.All (Expr.Issued history) →
    Brings (keeps history) (s.write (.ofRun history) roles call size) fun st => st.All (Expr.Issued history)
  /-- The calls in the statements of `main` in front of the others. -/
  prelude : ∀ history roles size,
    Brings (keeps history) (s.prelude (.ofRun history) roles size) fun b => ∀ st ∈ b, st.All (Expr.Issued history)

section Issued

variable {r r' : Registry} {history later : List Act}

/-- What the registry of a run has given out is what suits it. -/
theorem issued_eq (history : List Act) : Expr.Issued history = Expr.Suits (.ofRun history) :=
  issuedBy_eq_suits Registry.withCTypes history

/-- The registry of a run develops while its history goes on. -/
theorem GoesOn.ofRun_develops (h : GoesOn Block.Issued history later) :
    (Registry.ofRun history).Develops (.ofRun later) := GoesOn.develops h

/-- If the registry of a run develops, then its history goes on. -/
theorem Registry.Develops.ofRun_goesOn (h : (Registry.ofRun history).Develops r') :
    ∃ later, GoesOn Block.Issued history later ∧ r' = .ofRun later := Registry.Develops.goesOn h

/-- An expression with nothing in it that is no call. -/
theorem all_suits_leaf {e : Expr} (h : e.parts = [e]) (he : e.Suits r) : e.All (Expr.Suits r) := by
  intro x hx
  -- the only part is the expression itself
  rw [h] at hx
  obtain rfl := List.mem_singleton.mp hx
  exact he

theorem all_suits_var (v : VarId) : (Expr.var v).All (Expr.Suits r) := all_suits_leaf rfl trivial

theorem all_suits_int (n : Int) : (Expr.int n).All (Expr.Suits r) := all_suits_leaf rfl trivial

theorem all_suits_literal (text : String) : (Expr.literal text).All (Expr.Suits r) := all_suits_leaf rfl trivial

theorem all_suits_binary {lhs rhs : Expr} (op : Operation) (hl : lhs.All (Expr.Suits r)) (hr : rhs.All (Expr.Suits r)) :
    (Expr.binary lhs op rhs).All (Expr.Suits r) := Expr.all_binary.mpr ⟨trivial, hl, hr⟩

end Issued

/-! ## The built-in strategies

Both declare by a fixed sequence of acts, so that their declarations let any registry develop, whatever it is (`Evolves`);
and calls are handed out by `call` on the registry that they are given.  They remember nothing that would have to be right
for that, so that `keeps` is no condition. -/

/-- If the act comes to a result, then the registry has developed. -/
def Evolves (act : Declaring σ α) : Prop :=
  ∀ r notes a r' notes', act (r, notes) = .ok a (r', notes') → r.Develops r'

section Evolves

/-- Handing over a result leaves the registry as it is. -/
theorem Evolves.pure (a : α) : Evolves (σ := σ) (pure a) := by
  rintro r notes b r' notes' h
  cases h
  exact .refl r

/-- Acts in sequence let the registry develop if each of them does. -/
theorem Evolves.bind {act : Declaring σ α} {next : α → Declaring σ β} (h : Evolves act) (hn : ∀ a, Evolves (next a)) :
    Evolves (act >>= next) := by
  intro r notes b r'' notes'' hb
  obtain ⟨a, ⟨r', notes'⟩, hact, hnext⟩ := bind_eq_ok.mp hb
  exact (h r notes a r' notes' hact).trans (hn a r' notes' b r'' notes'' hnext)

theorem Evolves.orFail (answer : Except SynthesisError α) : Evolves (σ := σ) (orFail answer) := by
  cases answer with
  | error e => exact nofun
  | ok a => exact .pure a

theorem Evolves.registry : Evolves (σ := σ) Declaring.registry := by
  rintro r notes b r' notes' h
  cases h
  exact .refl r

theorem Evolves.type (key : String) : Evolves (σ := σ) (Declaring.type key) := Evolves.registry.bind fun _ => .orFail _

/-- The declaration of a variable is an act. -/
theorem Evolves.newVariable (t : ValueType) (name : String) : Evolves (σ := σ) (Declaring.newVariable t name) := by
  rintro r notes b r' notes' h
  cases h
  exact .act (.declareVariable t name) trivial

/-- The announcement of a function is an act. -/
theorem Evolves.newFunction (t : ValueType) (name : String) (params : List VarId) :
    Evolves (σ := σ) (Declaring.newFunction t name params) := by
  rintro r notes b r' notes' h
  cases h
  exact .act (.declareFunction t name params) trivial

/-- A body without calls suits any registry. -/
theorem Evolves.setBody (id : FuncId) {body : Block} (h : ∀ r, ∀ e ∈ blockParts body, e.Suits r) :
    Evolves (σ := σ) (Declaring.setBody id body) := by
  rintro r notes b r' notes' heq
  cases heq
  exact .act (.setBody id body) (h r)

theorem Evolves.note (change : σ → σ) : Evolves (Declaring.note change) := by
  rintro r notes b r' notes' h
  cases h
  exact .refl r

theorem Evolves.declareIntRoles : Evolves (σ := σ) declareIntRoles := by
  -- three variables of one type
  rw [declareIntRoles_eq]
  exact (Evolves.type _).bind fun _ => (Evolves.newVariable _ _).bind fun _ => (Evolves.newVariable _ _).bind fun _ =>
    (Evolves.newVariable _ _).bind fun _ => .pure _

end Evolves

section BuiltIn

variable {history : List Act} {r' : Registry} {notes notes' : σ}

/-- An act that lets the registry develop lets the history go on, if nothing need be remembered. -/
theorem Evolves.goesOn {act : Declaring σ α} (h : Evolves act) {a : α}
    (hact : act (.ofRun history, notes) = .ok a (r', notes')) :
    ∃ later, GoesOn Block.Issued history later ∧ r' = .ofRun later ∧ True := by
  obtain ⟨later, hlater, heq⟩ := (h _ _ _ _ _ hact).ofRun_goesOn
  exact ⟨later, hlater, heq, trivial⟩

end BuiltIn

/-- If nothing need be remembered, any act does. -/
theorem Brings.any {act : EStateM SynthesisError (X × σ) α} : Brings (fun _ => True) act fun _ => True :=
  fun _ _ _ _ _ _ _ => ⟨trivial, trivial⟩

/-- The condition that a variable is positive holds no call. -/
theorem positive_suits {r : Registry} {v : VarId} {e : Expr} (h : positive r v = .ok e) : e.All (Expr.Suits r) := by
  unfold positive at h
  cases hgt : r.operation "gt" with
  | error cause => rw [hgt] at h; cases h
  | ok gt =>
    rw [hgt] at h
    cases h
    exact all_suits_binary gt (all_suits_var v) (all_suits_int 0)

/-- The index of an element is a number, which holds no call. -/
theorem drawElement_brings (r : Registry) (roles : Roles) (size : Nat) :
    Brings (fun _ => True) (ArrayBacked.drawElement roles size) fun p => p.2.All (Expr.Suits r) :=
  Brings.any.bind fun _ _ => Brings.any.bind fun _ _ => .pure (all_suits_int _)

/-- **The strategy whose functions share an array builds on the registry of the run.**  It hands out no calls of its own, only
the one that it was handed with a value to store. -/
theorem arrayBacked_buildsOn : arrayBacked.BuildsOn fun _ _ => True where
  later _ _ := trivial
  roles history notes roles r notes' _ h := by
    have hroles : Evolves arrayBacked.roles := Evolves.declareIntRoles.bind fun _ => (Evolves.type _).bind fun _ =>
      (Evolves.newVariable _ _).bind fun _ => Evolves.registry.bind fun _ => .orFail _
    exact hroles.goesOn h
  helpers history notes ids r notes' _ h := (Evolves.pure []).goesOn h
  callArgs history notes roles first _ hfirst := by
    refine List.forall_mem_cons.mpr ⟨hfirst, fun e he => ?_⟩
    -- behind the argument there are variables only
    obtain ⟨v, -, rfl⟩ := List.mem_map.mp he
    rw [issued_eq]
    exact all_suits_var v
  loopGuard history notes roles e _ h := by
    rw [issued_eq]
    exact positive_suits h
  read history roles size := by
    rw [issued_eq]
    refine (drawElement_brings (.ofRun history) roles size).bind fun place hposition => Brings.any.bind fun plus _ => Brings.pure ?_
    exact Stmt.all_assign.mpr ⟨all_suits_var _, Expr.all_element.mpr ⟨trivial, hposition⟩⟩
  write history roles call size hcall := by
    rw [issued_eq] at hcall ⊢
    refine (drawElement_brings (.ofRun history) roles size).bind fun place hposition => Brings.any.bind fun plus _ => ?_
    refine (Brings.orFail fun _ => positive_suits).bind fun guarded hguarded => ?_
    refine Brings.pure (Stmt.all_whenever.mpr ⟨hguarded, fun st hst => ?_⟩)
    obtain rfl := List.mem_singleton.mp hst
    -- the value to store is the call that was handed in, and its calls were given out before
    exact Stmt.all_assign.mpr ⟨Expr.all_element.mpr ⟨trivial, hposition⟩, hcall⟩
  prelude history roles size := by
    rw [issued_eq]
    refine Brings.any.bind fun arr _ => Brings.any.bind fun values _ => Brings.any.bind fun int _ => Brings.pure ?_
    intro st hst
    obtain rfl := List.mem_singleton.mp hst
    exact all_suits_literal _

/-- A call with arguments that suit suits as a whole, once the registry has given it out. -/
theorem call_all_suits {r : Registry} {callee : FuncId} {args : List Expr} {e : Expr} (hne : args ≠ [])
    (hargs : ∀ x ∈ args, x.All (Expr.Suits r)) (h : r.call callee args = .ok e) : e.All (Expr.Suits r) := by
  -- the registry has just said yes to the call itself; its arguments are known
  obtain ⟨rfl, hsuits⟩ := Registry.suits_of_call (Registry.isSome_of_call hne h) h
  exact Expr.all_call.mpr ⟨hsuits, hargs⟩

/-- The helper that reads calls nothing. -/
theorem readerBody_suits (now : Registry) (int : ValueType) (plus : Operation) (path value total : VarId) (r : Registry) :
    ∀ e ∈ blockParts (FileBacked.readerBody now int plus path value total), e.Suits r := by
  simp [FileBacked.readerBody, FileBacked.openFile, FileBacked.openFailed, FileBacked.closeFile, Stmt.whenever,
    Stmt.scalar, Stmt.update, blockParts, Stmt.parts, Place.toExpr, Expr.parts, Expr.Suits]

/-- The helper that writes calls nothing. -/
theorem writerBody_suits (now : Registry) (path value : VarId) (r : Registry) :
    ∀ e ∈ blockParts (FileBacked.writerBody now path value), e.Suits r := by
  simp [FileBacked.writerBody, FileBacked.openFile, FileBacked.openFailed, FileBacked.closeFile, Stmt.whenever,
    blockParts, Stmt.parts, Expr.parts, Expr.Suits]

/-- The helpers are declared by acts, and their bodies hold no calls. -/
theorem FileBacked.declareHelpers_evolves : Evolves FileBacked.declareHelpers := by
  unfold FileBacked.declareHelpers
  refine (Evolves.type _).bind fun int => (Evolves.type _).bind fun string => (Evolves.type _).bind fun void => ?_
  refine Evolves.registry.bind fun _ => (Evolves.orFail _).bind fun plus => ?_
  refine (Evolves.newVariable _ _).bind fun path => (Evolves.newVariable _ _).bind fun value => ?_
  refine (Evolves.newVariable _ _).bind fun total => (Evolves.newFunction _ _ _).bind fun reader => ?_
  refine Evolves.registry.bind fun now => (Evolves.setBody _ (readerBody_suits now int plus path value total)).bind
    fun _ => ?_
  refine (Evolves.newFunction _ _ _).bind fun writer => Evolves.registry.bind fun now => ?_
  refine (Evolves.setBody _ (writerBody_suits now path value)).bind fun _ => ?_
  exact (Evolves.note _).bind fun _ => .pure _

/-- **The strategy that works on files builds on the registry of the run.**  Its own calls are those of its helpers, and these
it asks the registry for. -/
theorem fileBacked_buildsOn : fileBacked.BuildsOn fun _ _ => True where
  later _ _ := trivial
  roles history notes roles r notes' _ h := by
    have hroles : Evolves fileBacked.roles := Evolves.declareIntRoles.bind fun _ => Evolves.registry.bind fun _ => .orFail _
    exact hroles.goesOn h
  helpers history notes ids r notes' _ h := FileBacked.declareHelpers_evolves.goesOn h
  callArgs history notes roles first _ hfirst := by
    intro e he
    obtain rfl := List.mem_singleton.mp he
    exact hfirst
  loopGuard history notes roles e _ h := by
    rw [issued_eq]
    exact positive_suits h
  read history roles size := by
    rw [issued_eq]
    refine Brings.notes_bind fun notes _ => Brings.any.bind fun reader _ => Brings.any.bind fun n _ => ?_
    refine Brings.any.bind fun _ _ => Brings.bind (P := fun e => e.All (Expr.Suits (.ofRun history)))
      (Brings.orFail fun e he => ?_) fun call hcall => ?_
    · -- the helper is called with a path, which is no call
      refine call_all_suits (List.cons_ne_nil _ _) ?_ he
      exact List.forall_mem_cons.mpr ⟨all_suits_literal _, nofun⟩
    · exact Brings.any.bind fun plus _ => Brings.pure (Stmt.all_assign.mpr ⟨all_suits_var _, hcall⟩)
  write history roles call size hcall := by
    rw [issued_eq] at hcall ⊢
    refine Brings.notes_bind fun notes _ => Brings.any.bind fun writer _ => Brings.any.bind fun n _ => ?_
    refine Brings.bind (P := fun e => e.All (Expr.Suits (.ofRun history))) (Brings.orFail fun e he => ?_)
      fun store hstore => ?_
    · refine call_all_suits (List.cons_ne_nil _ _) ?_ he
      exact List.forall_mem_cons.mpr ⟨all_suits_literal _, List.forall_mem_cons.mpr ⟨hcall, nofun⟩⟩
    · refine (Brings.orFail fun _ => positive_suits).bind fun guarded hguarded => Brings.pure ?_
      refine Stmt.all_whenever.mpr ⟨hguarded, fun st hst => ?_⟩
      obtain rfl := List.mem_singleton.mp hst
      exact hstore
  prelude history roles size := Brings.pure nofun

end SeedCorpus
