/-
  Strategies that defer to another one, and runs that fail.

  A strategy defers to another one that it holds (`Strategy.DefersTo`, the part of its notes is `view`) when it hands the
  questions on.  It may refuse, and it may spoil a run: by arguments whose number is wrong, or by a helper without a body.
  That is how a run is made to fail in the middle, after it has taken notes.

  1. **Acts.**  One act follows another one (`Follows`) if whatever it comes to, the other comes to as well, on the part of
     the notes that is its own.  This goes through sequences of acts (`Follows.bind`), and holds of draws and declarations,
     which do not look at the notes.

  2. **Draws.**  All that a run draws follows what the run below draws, if the generated functions take as many arguments as
     the strategy below gives (`Strategy.Serves`): for then a call whose number of arguments is wrong is refused
     (`DefersTo.drawCall`).

  3. **Runs.**  A run that comes to a program all the same is a run of the strategy below, with the same draws, the same
     program and the same notes (`DefersTo.synthesize`).  A helper without a body cannot slip through, as a program is
     written down only if all its functions have bodies (`bodyOf_of_sections`).

  4. **Runs one after the other.**  Every run starts from what the runs before it leave, whether they failed or not
     (`synthesizeMany_getElem?`).  With 3 this says which notes are left behind.
-/
import SeedCorpus.Proofs.Acts
import SeedCorpus.Proofs.Synthesis.Growth
import SeedCorpus.Synthesis.Program

namespace SeedCorpus

open SeedCorpus.Random (Source)

variable {σ τ X α β : Type}

/-! ## Results

A sequence of acts is followed with something known of the first result: the arguments of a call are drawn with functions
that are known to be declared, for instance. -/

/-- What a result of an act, if it comes to one, is like. -/
def Yields {S : Type} (act : EStateM SynthesisError S α) (P : α → Prop) : Prop :=
  ∀ before a after, act before = .ok a after → P a

/-- What is answered outright is what it is. -/
theorem Yields.pure {S : Type} {P : α → Prop} {a : α} (h : P a) :
    Yields (pure a : EStateM SynthesisError S α) P := by
  rintro before b after hb
  cases hb
  exact h

/-- In a sequence the last act decides. -/
theorem Yields.bind {S : Type} {act : EStateM SynthesisError S α} {next : α → EStateM SynthesisError S β} {P : β → Prop}
    (h : ∀ a, Yields (next a) P) : Yields (act >>= next) P := by
  intro before b last hb
  obtain ⟨a, mid, -, hnext⟩ := bind_eq_ok.mp hb
  exact h a mid b last hnext

/-! ## Acts that follow other acts

Nothing is said of an act that fails: the act below may then come to something else, or fail in its turn. -/

/-- Whatever the one act comes to, the other one comes to, on the part of the notes that is its own. -/
def Follows (view : τ → σ) (act : EStateM SynthesisError (X × τ) α) (act' : EStateM SynthesisError (X × σ) α) : Prop :=
  ∀ x t a x' t', act (x, t) = .ok a (x', t') → act' (x, view t) = .ok a (x', view t')

section Follows

variable {view : τ → σ}

/-- What is answered outright leaves the notes alone. -/
theorem Follows.pure (a : α) : Follows (X := X) view (pure a) (pure a) := by
  rintro x t b x' t' h
  cases h
  rfl

/-- Acts in sequence, of which the first has only certain results. -/
theorem Follows.bind {act : EStateM SynthesisError (X × τ) α} {act' : EStateM SynthesisError (X × σ) α}
    {next : α → EStateM SynthesisError (X × τ) β} {next' : α → EStateM SynthesisError (X × σ) β} {P : α → Prop}
    (hy : Yields act P) (h : Follows view act act') (hn : ∀ a, P a → Follows view (next a) (next' a)) :
    Follows view (act >>= next) (act' >>= next') := by
  intro x t b x'' t'' hb
  obtain ⟨a, ⟨x', t'⟩, hact, hnext⟩ := bind_eq_ok.mp hb
  exact bind_eq_ok.mpr ⟨a, (x', view t'), h x t a x' t' hact, hn a (hy _ _ _ hact) x' t' b x'' t'' hnext⟩

/-- Acts in sequence, of which the first may have any result. -/
theorem Follows.seq {act : EStateM SynthesisError (X × τ) α} {act' : EStateM SynthesisError (X × σ) α}
    {next : α → EStateM SynthesisError (X × τ) β} {next' : α → EStateM SynthesisError (X × σ) β}
    (h : Follows view act act') (hn : ∀ a, Follows view (next a) (next' a)) :
    Follows view (act >>= next) (act' >>= next') :=
  .bind (P := fun _ => True) (fun _ _ _ _ => trivial) h fun a _ => hn a

/-- An answer that may be a refusal is the same on both sides. -/
theorem Follows.orFail (answer : Except SynthesisError α) : Follows (X := X) view (orFail answer) (orFail answer) := by
  cases answer with
  | ok a => exact .pure a
  | error e => exact nofun

/-- A refusal comes to nothing. -/
theorem Follows.throw (e : SynthesisError) : Follows (X := X) (α := α) view (throw e) (throw e) := nofun

/-- A draw has nothing to do with the notes. -/
theorem Follows.draw (act : Source → α × Source) : Follows view (Drawing.draw act) (Drawing.draw act) := by
  rintro g t a g' t' h
  cases h
  rfl

/-- A draw below a bound, or a refusal if there is no number below it. -/
theorem Follows.below (n : Nat) : Follows view (Drawing.below n) (Drawing.below n) := by
  unfold Drawing.below
  split
  · exact .throw _
  · exact .draw _

/-- A draw up to a bound, or a refusal if the bound is negative. -/
theorem Follows.upTo (bound : Int) : Follows view (Drawing.upTo bound) (Drawing.upTo bound) := by
  unfold Drawing.upTo
  split
  · exact .throw _
  · exact .draw _

/-- A declaration has nothing to do with the notes. -/
theorem Follows.declare (act : Registry → α × Registry) : Follows view (Declaring.declare act) (Declaring.declare act) := by
  rintro r t a r' t' h
  cases h
  rfl

/-- The look-up of a type has nothing to do with the notes. -/
theorem Follows.type (key : String) : Follows view (Declaring.type key) (Declaring.type key) := fun r =>
  Follows.orFail (r.type key) r

/-- The same act for every element of a list. -/
theorem Follows.mapM {act : β → EStateM SynthesisError (X × τ) α} {act' : β → EStateM SynthesisError (X × σ) α}
    (h : ∀ b, Follows view (act b) (act' b)) (l : List β) : Follows view (l.mapM act) (l.mapM act') := by
  induction l with
  | nil => exact .pure []
  | cons b l ih =>
    rw [List.mapM_cons, List.mapM_cons]
    exact (h b).seq fun a => ih.seq fun rest => .pure _

end Follows

/-! ## Deferring

The fields say what the strategy may do instead of handing a question on.  They come in the order in which a run asks. -/

/-- A helper is announced and has no body. -/
def Registry.Lacks (r : Registry) (id : FuncId) : Prop := id.index < r.functions.size ∧ r.bodyOf id = none

/-- A strategy hands its questions on to another one.  It may refuse; its arguments of a call may be too few or too many; and
it may declare a helper of its own that has no body. -/
structure Strategy.DefersTo (s : Strategy τ) (inner : Strategy σ) (view : τ → σ) : Prop where
  /-- The roles. -/
  roles : Follows view s.roles inner.roles
  /-- The parameters. -/
  params : ∀ t roles, s.params t roles = inner.params (view t) roles
  /-- The helpers: those of the other strategy, or a fresh one without a body among them. -/
  helpers : ∀ r t ids r' t', s.helpers (r, t) = .ok ids (r', t') →
    inner.helpers (r, view t) = .ok ids (r', view t') ∨ ∃ id ∈ ids, r.functions.size ≤ id.index ∧ r'.Lacks id
  /-- The arguments of a call: those of the other strategy, or a wrong number of them. -/
  callArgs : ∀ t roles first, s.callArgs t roles first = inner.callArgs (view t) roles first ∨
    (s.callArgs t roles first).length ≠ (inner.callArgs (view t) roles first).length
  /-- The condition of a conditional loop. -/
  loopGuard : ∀ t r roles, s.loopGuard t r roles = inner.loopGuard (view t) r roles
  /-- The statements that read. -/
  read : ∀ r roles size, Follows view (s.read r roles size) (inner.read r roles size)
  /-- The statements that write. -/
  write : ∀ r roles call size, Follows view (s.write r roles call size) (inner.write r roles call size)
  /-- The statements of `main` in front of the calls. -/
  prelude : ∀ r roles size, Follows view (s.prelude r roles size) (inner.prelude r roles size)
  /-- The files. -/
  takeFiles : ∀ t, (s.takeFiles t).1 = (inner.takeFiles (view t)).1 ∧
    view (s.takeFiles t).2 = (inner.takeFiles (view t)).2

/-- The generated functions take as many arguments as the strategy gives. -/
def Strategy.Serves (inner : Strategy σ) (r : Registry) (f : Frame) : Prop :=
  ∀ (n : Nat) notes first, r.arity (f.tests[n]?.getD ⟨0⟩) = (inner.callArgs notes f.roles first).length

/-- Whatever is declared, the generated functions take as many arguments as the strategy gives. -/
def Strategy.ServesAll (inner : Strategy σ) (size : Nat) : Prop :=
  ∀ notes outline after, declareAll inner size (Registry.withCTypes, notes) = .ok outline after →
    inner.Serves after.1 { roles := outline.roles, tests := outline.tests }

namespace Strategy.DefersTo

variable {s : Strategy τ} {inner : Strategy σ} {view : τ → σ} {r : Registry} {f : Frame}

/-- A call that is not refused has the arguments of the strategy below. -/
theorem drawCall (h : s.DefersTo inner view) (hf : inner.Serves r f) (adjusted : Expr) :
    Follows view (drawCall s r f adjusted) (drawCall inner r f adjusted) := by
  unfold SeedCorpus.drawCall
  refine (Follows.below f.size).seq fun n g t e g' t' he => ?_
  -- the notes are looked at, and the call is made with what they say
  show orFail (r.call _ (inner.callArgs (view t) f.roles adjusted)) (g, view t) = _
  have he' : orFail (r.call (f.tests[n]?.getD ⟨0⟩) (s.callArgs t f.roles adjusted)) (g, t) = .ok e (g', t') := he
  rcases h.callArgs t f.roles adjusted with hargs | hne
  · rw [← hargs]
    exact Follows.orFail _ g t e g' t' he'
  · rw [Registry.call, hf n (view t) adjusted, if_neg hne] at he'
    cases he'

/-- A statement of one kind.  The kinds differ in what they ask: all but one ask for a call, one for the condition of a loop,
and two hand the rest over to the strategy. -/
theorem drawOfKind (h : s.DefersTo inner view) (hf : inner.Serves r f) (int : ValueType) (ops : Operators)
    (kind : StatementKind) : Follows view (drawOfKind s r f int ops kind) (drawOfKind inner r f int ops kind) := by
  cases kind with
  | guardedCall => exact (h.drawCall hf _).seq fun call => .pure _
  | countedLoop => exact (h.drawCall hf _).seq fun call => .pure _
  | conditionedLoop =>
    -- the condition is the one that the strategy below answers with
    refine (h.drawCall hf _).seq fun call g t st g' t' hst => ?_
    have hguard := h.loopGuard t r f.roles
    have hst' : (orFail (s.loopGuard t r f.roles) >>= fun condition =>
        (pure (.loop condition [.update f.roles.sum ops.plus call]) : Drawing τ Stmt)) (g, t) = .ok st (g', t') := hst
    rw [hguard] at hst'
    exact ((Follows.orFail (inner.loopGuard (view t) r f.roles)).seq fun condition => .pure _) g t st g' t' hst'
  | read => exact h.read r f.roles f.size
  | write => exact (h.drawCall hf _).seq fun call => h.write r f.roles call f.size

/-- Statements one after the other, each of a kind that is drawn first. -/
theorem drawStatements (h : s.DefersTo inner view) (hf : inner.Serves r f) (int : ValueType) (ops : Operators)
    (count : Nat) : Follows view (drawStatements s r f int ops count) (drawStatements inner r f int ops count) := by
  have hkind : Follows view (StatementKind.draw (σ := τ)) StatementKind.draw := (Follows.below _).seq fun n => .pure _
  induction count with
  | zero => exact .pure []
  | succ count ih =>
    exact hkind.seq fun kind => (h.drawOfKind hf int ops kind).seq fun st => ih.seq fun rest => .pure _

/-- The body of a generated function. -/
theorem drawBody (h : s.DefersTo inner view) (hf : inner.Serves r f) (number budget : Nat) :
    Follows view (drawBody s r f number budget) (drawBody inner r f number budget) :=
  (Follows.orFail _).seq fun int => (Follows.orFail _).seq fun ops =>
    (h.drawStatements hf int ops budget).seq fun _ => .pure _

/-- The calls that `main` starts with. -/
theorem drawStarts (h : s.DefersTo inner view) (hf : inner.Serves r f) (plus : Operation) (count : Nat) :
    Follows view (drawStarts s r f plus count) (drawStarts inner r f plus count) := by
  induction count with
  | zero => exact .pure []
  | succ count ih =>
    exact (Follows.upTo _).seq fun start => (h.drawCall hf _).seq fun call => ih.seq fun rest => .pure _

/-- The body of `main`: what the strategy puts in front, and the calls. -/
theorem drawMain (h : s.DefersTo inner view) (hf : inner.Serves r f) :
    Follows view (drawMain s r f) (drawMain inner r f) :=
  (Follows.orFail _).seq fun _ => (Follows.orFail _).seq fun plus => (h.prelude r f.roles f.size).seq fun _ =>
    (h.drawStarts hf plus f.size).seq fun _ => .pure _

end Strategy.DefersTo

/-! ## Bodies that are drawn

The bodies are given to functions that are declared already.  So a helper that lacks a body before they are drawn lacks it
afterwards, unless it is one of the functions that are drawn for. -/

/-- A body changes no number of parameters. -/
theorem Registry.arity_setBody (r : Registry) (id other : FuncId) (body : Block) :
    (r.setBody id body).arity other = r.arity other := by
  by_cases he : other = id
  · subst he
    cases hf : r.functionAt? other with
    | some fn => rw [arity, functionAt?_setBody_self hf, arity, hf]; rfl
    | none =>
      have hnone : (r.setBody other body).functionAt? other = none := by
        have hsize : (r.setBody other body).functions.size = r.functions.size := Array.size_modify
        rw [functionAt?, Array.getElem?_eq_none_iff] at hf ⊢
        rw [hsize]
        exact hf
      rw [arity, hnone, arity, hf]
  · rw [arity, functionAt?_setBody_ne he, arity]

/-- What drawn bodies leave as it is: the numbers of parameters, and the functions that are not among those drawn for. -/
structure Registry.SameBut (r r' : Registry) (ids : List FuncId) : Prop where
  /-- The numbers of parameters. -/
  arity : ∀ id, r'.arity id = r.arity id
  /-- The number of functions. -/
  size : r'.functions.size = r.functions.size
  /-- The other functions. -/
  others : ∀ id ∉ ids, r'.bodyOf id = r.bodyOf id

/-- Drawn bodies change nothing but the bodies of the functions that they are drawn for. -/
theorem drawBodies_yields (s : Strategy τ) (f : Frame) (budget : Nat) (list : List (Nat × FuncId)) : ∀ {r : Registry},
    Yields (drawBodies s f budget r list) fun r' => r.SameBut r' (list.map (·.2)) := by
  induction list with
  | nil => exact .pure ⟨fun _ => rfl, rfl, fun _ _ => rfl⟩
  | cons e list ih =>
    intro r
    obtain ⟨number, id⟩ := e
    -- one body is given, and the rest starts from the registry with it
    refine Yields.bind fun body before r' after hr' => ?_
    have hrest := ih before r' after hr'
    refine ⟨fun other => ?_, hrest.size.trans Array.size_modify, fun other hother => ?_⟩
    · rw [hrest.arity, Registry.arity_setBody]
    · obtain ⟨hne, hother⟩ := not_or.mp fun hm => hother (List.mem_cons.mpr hm)
      rw [hrest.others other hother, Registry.bodyOf_setBody_ne hne]

namespace Strategy

variable {s : Strategy τ} {inner : Strategy σ} {view : τ → σ} {r : Registry} {f : Frame}

/-- Drawn bodies leave the numbers of arguments as they are. -/
theorem Serves.sameBut (h : inner.Serves r f) {r' : Registry} {ids : List FuncId} (hr : r.SameBut r' ids) :
    inner.Serves r' f := fun n notes first => by
  rw [hr.arity, h n notes first]

/-- The bodies are those of the strategy below, as each of them is. -/
theorem DefersTo.drawBodies (h : s.DefersTo inner view) (budget : Nat) (list : List (Nat × FuncId)) :
    ∀ {r : Registry}, inner.Serves r f →
      Follows view (drawBodies s f budget r list) (drawBodies inner f budget r list) := by
  induction list with
  | nil => exact fun _ => .pure _
  | cons e list ih =>
    intro r hf
    obtain ⟨number, id⟩ := e
    refine (h.drawBody hf number budget).seq fun body => ih fun n notes first => ?_
    -- with one more body in the registry, the numbers of parameters are still those that the strategy below gives
    rw [Registry.arity_setBody, hf n notes first]

end Strategy

/-! ## Runs

A run is opened up twice: `assemble_eq_ok` says what a run has come to that ends in functions, and `synthesize_eq_ok` what
one that ends in a program has.  Both are equivalences: they take a run of the strategy apart, and put together the run of
the strategy below. -/

/-- The generated functions are announced in a registry. -/
theorem newTests_yields {int : ValueType} {params : List VarId} (l : List Nat) : ∀ {before : Registry × τ} {ids after},
    (l.mapM fun k => Declaring.newFunction (σ := τ) int (testName k) params) before = .ok ids after →
      before.1.functions.size ≤ after.1.functions.size ∧ ∀ id ∈ ids, id.index < after.1.functions.size := by
  induction l with
  | nil =>
    rintro before ids after h
    cases h
    exact ⟨Nat.le_refl _, nofun⟩
  | cons k l ih =>
    intro before ids after h
    rw [List.mapM_cons] at h
    obtain ⟨id, mid, hid, hnext⟩ := bind_eq_ok.mp h
    obtain ⟨rest, last, hrest, hlast⟩ := bind_eq_ok.mp hnext
    obtain ⟨hle, hall⟩ := ih hrest
    cases hid
    cases hlast
    have hpush : before.1.functions.size + 1 ≤ after.1.functions.size :=
      Nat.le_trans (Nat.le_of_eq (Array.size_push _).symm) hle
    refine ⟨by omega, fun other hother => ?_⟩
    rcases List.mem_cons.mp hother with rfl | hother
    · exact hpush
    · exact hall other hother

/-- If many answers are no refusal, then none of them is one. -/
theorem exists_of_mapM_eq_ok {ε : Type} {act : α → Except ε β} : ∀ {l : List α} {bs : List β}, l.mapM act = .ok bs →
    ∀ a ∈ l, ∃ b, act a = .ok b
  | [], _, _ => nofun
  | a :: l, bs, h => by
    rw [List.mapM_cons] at h
    -- the first answer is one, and so are the others
    obtain ⟨b, hb, h₁⟩ := except_bind_eq_ok.mp h
    obtain ⟨rest, hrest, -⟩ := except_bind_eq_ok.mp h₁
    exact List.forall_mem_cons.mpr ⟨⟨b, hb⟩, exists_of_mapM_eq_ok hrest⟩

/-- A function that is written down has a body. -/
theorem bodyOf_of_renderDefinition {r : Registry} {id : FuncId} {text : String} (h : renderDefinition r id = .ok text) :
    ∃ body, r.bodyOf id = some body := by
  -- a definition is refused if there is no such function, or if it has no body
  unfold renderDefinition at h
  split at h
  · rename_i f hf
    split at h
    · rename_i hsome
      obtain ⟨body, hbody⟩ := Option.isSome_iff_exists.mp hsome
      exact ⟨body, Option.bind_eq_some_iff.mpr ⟨f, hf, hbody⟩⟩
    · cases h
  · cases h

/-- The announcement of a function changes no other one. -/
theorem Registry.bodyOf_declareFunction {r : Registry} {id : FuncId} (h : id.index < r.functions.size)
    (returnType : ValueType) (name : String) (params : List VarId) :
    (r.declareFunction returnType name params).2.bodyOf id = r.bodyOf id := by
  have hsame : (r.declareFunction returnType name params).2.functionAt? id = r.functionAt? id := by
    show (r.functions.push _)[id.index]? = r.functions[id.index]?
    rw [Array.getElem?_push_lt h, Array.getElem?_eq_getElem h]
  rw [bodyOf, hsame, bodyOf]

/-- A program is written down only if all its functions have bodies. -/
theorem bodyOf_of_sections {r : Registry} {tests helpers : List FuncId} {main : FuncId} {texts : List String}
    (h : sections r tests helpers main = .ok texts) : ∀ id ∈ helpers ++ tests ++ [main], ∃ body, r.bodyOf id = some body := by
  intro id hid
  obtain ⟨definitions, hdefinitions, -⟩ := except_bind_eq_ok.mp h
  obtain ⟨text, htext⟩ := exists_of_mapM_eq_ok hdefinitions id hid
  exact bodyOf_of_renderDefinition htext

/-- A program with a helper that has no body cannot be written down. -/
theorem sections_ne_ok {r : Registry} {tests helpers : List FuncId} {main id : FuncId} (hid : id ∈ helpers)
    (hbody : r.bodyOf id = none) (texts : List String) : sections r tests helpers main ≠ .ok texts := by
  intro hok
  obtain ⟨body, hsome⟩ := bodyOf_of_sections hok id (List.mem_append_left _ (List.mem_append_left _ hid))
  rw [hbody] at hsome
  cases hsome

/-- What is declared on a registry of its own leaves the source alone, and starts from the types of the library. -/
theorem onFreshRegistry_eq_ok {act : Declaring τ α} {g g' : Source} {t t' : τ} {a : α} {r : Registry} :
    onFreshRegistry act (g, t) = .ok (a, r) (g', t') ↔ g' = g ∧ act (Registry.withCTypes, t) = .ok a (r, t') := by
  cases hact : act (Registry.withCTypes, t) with
  | ok b after =>
    -- the source is handed through, and the registry is the first part of what is answered
    simp only [onFreshRegistry, hact]
    constructor
    · intro h
      cases h
      exact ⟨rfl, rfl⟩
    · rintro ⟨rfl, h⟩
      cases h
      rfl
  | error e after =>
    simp only [onFreshRegistry, hact]
    exact ⟨nofun, fun h => nomatch h.2⟩

/-- What a run that ends in functions has come to: declarations, bodies for the generated functions, drawn one after the other
into the registry, and a body for `main`, which is declared last. -/
theorem assemble_eq_ok {s : Strategy τ} {config : SynthesisConfig} {g g' : Source} {t t' : τ} {a : Assembly} :
    assemble s config (g, t) = .ok a (g', t') ↔ config.functions ≠ 0 ∧
      ∃ (outline : Outline) (r₁ : Registry) (t₁ : τ) (r₂ : Registry) (g₂ : Source) (t₂ : τ) (mainBody : Block)
        (int : ValueType),
        declareAll s config.functions (Registry.withCTypes, t) = .ok outline (r₁, t₁) ∧
        drawBodies s { roles := outline.roles, tests := outline.tests } config.budget r₁
          ((List.range config.functions).zip outline.tests) (g, t₁) = .ok r₂ (g₂, t₂) ∧
        drawMain s r₂ { roles := outline.roles, tests := outline.tests } (g₂, t₂) = .ok mainBody (g', t') ∧
        r₂.type "int" = .ok int ∧
        a = { registry := (r₂.declareFunction int "main" []).2.setBody ⟨r₂.functions.size⟩ mainBody,
              tests := outline.tests, helpers := outline.helpers, main := ⟨r₂.functions.size⟩ } := by
  unfold assemble
  by_cases hne : config.functions = 0
  · rw [if_pos hne]
    exact ⟨nofun, fun h => absurd hne h.1⟩
  rw [if_neg hne]
  constructor
  · -- the acts in their order: declarations, bodies, `main`, and the type that `main` returns
    intro h
    obtain ⟨⟨outline, r₁⟩, ⟨g₁, t₁⟩, hdeclared, h₁⟩ := bind_eq_ok.mp h
    obtain ⟨r₂, ⟨g₂, t₂⟩, hbodies, h₂⟩ := bind_eq_ok.mp h₁
    obtain ⟨mainBody, ⟨g₃, t₃⟩, hmain, h₃⟩ := bind_eq_ok.mp h₂
    obtain ⟨int, ⟨g₄, t₄⟩, hint, hlast⟩ := bind_eq_ok.mp h₃
    obtain ⟨rfl, hdeclarations⟩ := onFreshRegistry_eq_ok.mp hdeclared
    obtain ⟨htype, hsame⟩ := orFail_eq_ok.mp hint
    cases hsame
    cases hlast
    exact ⟨hne, outline, r₁, t₁, r₂, g₂, t₂, mainBody, int, hdeclarations, hbodies, hmain, htype, rfl⟩
  · rintro ⟨-, outline, r₁, t₁, r₂, g₂, t₂, mainBody, int, hdeclarations, hbodies, hmain, htype, rfl⟩
    exact bind_eq_ok.mpr ⟨(outline, r₁), _, onFreshRegistry_eq_ok.mpr ⟨rfl, hdeclarations⟩, bind_eq_ok.mpr ⟨r₂, _, hbodies,
      bind_eq_ok.mpr ⟨mainBody, _, hmain, bind_eq_ok.mpr ⟨int, _, orFail_eq_ok.mpr ⟨htype, rfl⟩, rfl⟩⟩⟩⟩

/-- What a run that ends in a program has come to: functions that could be written down, and the files that are handed
over. -/
theorem synthesize_eq_ok {s : Strategy τ} {config : SynthesisConfig} {before last : Source × τ} {p : Program} :
    synthesize s config before = .ok p last ↔ ∃ a mid texts, assemble s config before = .ok a mid ∧
      sections a.registry a.tests a.helpers a.main = .ok texts ∧
      p = { source := joinSections texts, auxFiles := (s.takeFiles mid.2).1 } ∧ last = (mid.1, (s.takeFiles mid.2).2) := by
  unfold synthesize
  constructor
  · intro h
    obtain ⟨a, mid, hassembled, h₁⟩ := bind_eq_ok.mp h
    obtain ⟨texts, mid', hanswer, h₂⟩ := bind_eq_ok.mp h₁
    obtain ⟨hsections, rfl⟩ := orFail_eq_ok.mp hanswer
    cases h₂
    exact ⟨a, _, texts, hassembled, hsections, rfl, rfl⟩
  · rintro ⟨a, mid, texts, hassembled, hsections, rfl, rfl⟩
    exact bind_eq_ok.mpr ⟨a, mid, hassembled, bind_eq_ok.mpr ⟨texts, mid, orFail_eq_ok.mpr ⟨hsections, rfl⟩, rfl⟩⟩

namespace Strategy.DefersTo

variable {s : Strategy τ} {inner : Strategy σ} {view : τ → σ}

/-- The declarations of a run are those of the strategy below, or there is a helper without a body that is none of the
generated functions. -/
theorem declareAll (h : s.DefersTo inner view) {size : Nat} {r r' : Registry} {t t' : τ} {outline : Outline}
    (hok : declareAll s size (r, t) = .ok outline (r', t')) :
    declareAll inner size (r, view t) = .ok outline (r', view t') ∨
      ∃ id ∈ outline.helpers, id ∉ outline.tests ∧ r'.Lacks id := by
  unfold SeedCorpus.declareAll at hok ⊢
  obtain ⟨roles, ⟨r₁, t₁⟩, hroles, hok₁⟩ := bind_eq_ok.mp hok
  obtain ⟨int, ⟨r₂, t₂⟩, hint, hok₂⟩ := bind_eq_ok.mp hok₁
  obtain ⟨state, mid, hstate, hok₃⟩ := bind_eq_ok.mp hok₂
  cases hstate
  obtain ⟨tests, ⟨r₃, t₃⟩, htests, hok₄⟩ := bind_eq_ok.mp hok₃
  obtain ⟨helpers, ⟨r₄, t₄⟩, hhelpers, hlast⟩ := bind_eq_ok.mp hok₄
  cases hlast
  -- the generated functions are announced with the parameters of the strategy below
  have hnew : Follows view ((List.range size).mapM fun k => Declaring.newFunction int (testName k) (s.params t₂ roles))
      ((List.range size).mapM fun k => Declaring.newFunction int (testName k) (inner.params (view t₂) roles)) := by
    rw [h.params]
    exact .mapM (fun k => .declare _) _
  rcases h.helpers _ _ _ _ _ hhelpers with hinner | ⟨id, hid, hfresh, hlacks⟩
  · refine Or.inl (bind_eq_ok.mpr ⟨roles, _, h.roles _ _ _ _ _ hroles, bind_eq_ok.mpr ⟨int, _,
      Follows.type "int" _ _ _ _ _ hint, bind_eq_ok.mpr ⟨_, _, rfl, bind_eq_ok.mpr ⟨tests, _,
        hnew _ _ _ _ _ htests, bind_eq_ok.mpr ⟨helpers, _, hinner, rfl⟩⟩⟩⟩⟩)
  · refine Or.inr ⟨id, hid, fun hm => ?_, hlacks⟩
    -- the generated functions are older than the helper without a body
    have hlt := (newTests_yields _ htests).2 id hm
    exact Nat.lt_irrefl _ (Nat.lt_of_lt_of_le hlt hfresh)

/-- The functions of a run are those of the strategy below, or there is a helper without a body among them. -/
theorem assemble (h : s.DefersTo inner view) {config : SynthesisConfig} (hserves : inner.ServesAll config.functions)
    {g g' : Source} {t t' : τ} {a : Assembly} (hok : assemble s config (g, t) = .ok a (g', t')) :
    assemble inner config (g, view t) = .ok a (g', view t') ∨ ∃ id ∈ a.helpers, a.registry.bodyOf id = none := by
  obtain ⟨hne, outline, r₁, t₁, r₂, g₂, t₂, mainBody, int, hdeclarations, hbodies, hmain, hint, rfl⟩ := assemble_eq_ok.mp hok
  have hsame := drawBodies_yields s _ _ _ _ _ _ hbodies
  rcases h.declareAll hdeclarations with hinner | ⟨id, hid, htest, hlt, hbody⟩
  · have hf := hserves _ _ _ hinner
    exact Or.inl (assemble_eq_ok.mpr ⟨hne, outline, r₁, view t₁, r₂, g₂, view t₂, mainBody, int, hinner,
      h.drawBodies _ _ hf _ _ _ _ _ hbodies, h.drawMain (hf.sameBut hsame) _ _ _ _ _ hmain, hint, rfl⟩)
  · -- no body is drawn for the helper, as it is none of the generated functions, and it is not `main` either
    have htests : id ∉ ((List.range config.functions).zip outline.tests).map (·.2) := fun hm => by
      obtain ⟨e, he, rfl⟩ := List.mem_map.mp hm
      exact htest (List.of_mem_zip he).2
    have hlt₂ : id.index < r₂.functions.size := hsame.size ▸ hlt
    have hmain : id ≠ ⟨r₂.functions.size⟩ := fun he => Nat.ne_of_lt hlt₂ (congrArg FuncId.index he)
    refine Or.inr ⟨id, hid, ?_⟩
    show ((r₂.declareFunction int "main" []).2.setBody ⟨r₂.functions.size⟩ mainBody).bodyOf id = none
    rw [Registry.bodyOf_setBody_ne hmain, Registry.bodyOf_declareFunction hlt₂, hsame.others id htests, hbody]

/-- **A run that comes to a program is a run of the strategy below.** -/
theorem synthesize (h : s.DefersTo inner view) {config : SynthesisConfig} (hserves : inner.ServesAll config.functions) :
    Follows view (synthesize s config) (synthesize inner config) := by
  intro g t p g' t' hok
  obtain ⟨a, ⟨g₁, t₁⟩, texts, hassembled, hsections, rfl, hlast⟩ := synthesize_eq_ok.mp hok
  cases hlast
  rcases h.assemble hserves hassembled with hinner | ⟨id, hid, hbody⟩
  · obtain ⟨hfiles, hview⟩ := h.takeFiles t₁
    rw [hfiles, hview]
    exact synthesize_eq_ok.mpr ⟨a, _, texts, hinner, hsections, rfl, rfl⟩
  · -- without a body there is no program
    exact absurd hsections (sections_ne_ok hid hbody texts)

end Strategy.DefersTo

/-! ## Runs one after the other

Here nothing is asked of the strategy.  Every lemma is by induction on the number of runs, with the state that they start
from left open: the first run changes it for the others. -/

section Runs

variable {s : Strategy σ} {config : SynthesisConfig}

/-- The last run starts from what the runs before it leave. -/
theorem synthesizeMany_succ (k : Nat) : ∀ state : Source × σ, (synthesizeMany s config state (k + 1)).2 =
    (outcome (synthesize s config) (synthesizeMany s config state k).2).2 := by
  induction k with
  | zero => exact fun _ => rfl
  | succ k ih => exact fun state => ih (outcome (synthesize s config) state).2

/-- A run among several starts from what the runs before it leave. -/
theorem synthesizeMany_of_lt (k : Nat) : ∀ (state : Source × σ) {count : Nat}, k < count →
    (synthesizeMany s config state count).1[k]? =
      some (outcome (synthesize s config) (synthesizeMany s config state k).2).1 := by
  induction k with
  | zero =>
    intro state count h
    cases count with
    | zero => exact absurd h (Nat.lt_irrefl 0)
    | succ count => rfl
  | succ k ih =>
    intro state count h
    cases count with
    | zero => exact absurd h (Nat.not_lt_zero _)
    | succ count => exact ih (outcome (synthesize s config) state).2 (Nat.lt_of_succ_lt_succ h)

/-- The last of several runs. -/
theorem synthesizeMany_last (k : Nat) (state : Source × σ) : (synthesizeMany s config state (k + 1)).1[k]? =
    some (outcome (synthesize s config) (synthesizeMany s config state k).2).1 :=
  synthesizeMany_of_lt k state (Nat.lt_succ_self k)

/-- Every run comes out as it does from what the runs before it leave.  The other way round: if there is a result of that
number, it is this one. -/
theorem synthesizeMany_getElem? {out : Except SynthesisError Program} (k : Nat) : ∀ (state : Source × σ) {count : Nat},
    (synthesizeMany s config state count).1[k]? = some out →
      (outcome (synthesize s config) (synthesizeMany s config state k).2).1 = out := by
  induction k with
  | zero =>
    intro state count h
    cases count with
    | zero => cases h
    | succ count => exact Option.some.inj h
  | succ k ih =>
    intro state count h
    cases count with
    | zero => cases h
    | succ count => exact ih (outcome (synthesize s config) state).2 h

end Runs

end SeedCorpus
