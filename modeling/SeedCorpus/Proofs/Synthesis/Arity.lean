/-
  Calls have as many arguments as they should.

  A call is given out by a registry, which refuses it if its arguments are not as many as the parameters of the function; and
  no act changes the parameters of a function.  That is the whole reason why calls suit, in every later state of the
  registry.  What is left is to follow a run, and to see that no call comes from anywhere else.

  1. **Drawing.**  A run draws statements with calls of generated functions, which it asks the registry for, and with what a
     strategy hands out.  If the strategy builds on the registry (`Strategy.BuildsOn`), then all calls in a body that is drawn
     suit (`drawBody_brings`, `drawMain_brings`), and so do those in the functions of a run (`assemble_sound`).  A program is
     written down only if all of them have bodies (`bodyOf_of_sections`).

  2. **Mismatch.**  A strategy whose arguments are never as many as its parameters comes to no program
     (`synthesize_ne_ok`).  For `main` holds a call of a generated function, whatever the budget is, and the registry refuses
     that one.  Here nothing is asked of the calls that the strategy hands out, nor of the bodies that it gives: only that it
     declares by acts, as otherwise it could exchange the functions.

  Both are put together in `calls_suit`.
-/
import SeedCorpus.Proofs.Synthesis.Building
import SeedCorpus.Proofs.Synthesis.Deferring
import SeedCorpus.Proofs.Rendering.Programs

namespace SeedCorpus

open SeedCorpus.Random (Source)

variable {σ : Type}

/-! ## Declarations of a run -/

/-- The generated functions are declared, and the first of all functions is. -/
structure Registry.Declares (r : Registry) (f : Frame) : Prop where
  /-- The generated functions. -/
  tests : ∀ id ∈ f.tests, (r.functionAt? id).isSome
  /-- The first of all functions. -/
  first : (r.functionAt? ⟨0⟩).isSome

section Declarations

variable {s : Strategy σ} {gives : List Act → Block → Prop} {keeps : List Act → σ → Prop} {history later : List Act}
  {r' : Registry} {f : Frame} {notes notes' : σ}

/-- Functions that are declared stay declared. -/
theorem Registry.Declares.goesOn (h : (Registry.ofRun history).Declares f) (hlater : GoesOn gives history later) :
    (Registry.ofRun later).Declares f := by
  have hstill : ∀ id, ((Registry.ofRun history).functionAt? id).isSome → ((Registry.ofRun later).functionAt? id).isSome := by
    intro id hid
    obtain ⟨fn, hfn⟩ := Option.isSome_iff_exists.mp hid
    obtain ⟨fn', hfn', -⟩ := hlater.functionAt? hfn
    exact Option.isSome_iff_exists.mpr ⟨fn', hfn'⟩
  exact ⟨fun id hid => hstill id (h.tests id hid), hstill _ h.first⟩

/-- The generated functions are declared with the parameters of the strategy. -/
theorem newTests_goesOn {int : ValueType} {params : List VarId} (l : List Nat) :
    ∀ {history : List Act} {r' : Registry} {notes notes' : σ} {ids : List FuncId},
      (l.mapM fun k => Declaring.newFunction (σ := σ) int (testName k) params) (.ofRun history, notes)
          = .ok ids (r', notes') →
        ∃ later, GoesOn gives history later ∧ r' = .ofRun later ∧ notes' = notes ∧ ids.length = l.length ∧
          ∀ id ∈ ids, ∃ fn, r'.functionAt? id = some fn ∧ fn.params = params := by
  induction l with
  | nil =>
    rintro history r' notes notes' ids h
    cases h
    exact ⟨history, .refl history, rfl, rfl, rfl, nofun⟩
  | cons k l ih =>
    intro history r' notes notes' ids h
    rw [List.mapM_cons] at h
    obtain ⟨id, mid, hid, hnext⟩ := bind_eq_ok.mp h
    obtain ⟨rest, ⟨r₂, notes₂⟩, hrest, hlast⟩ := bind_eq_ok.mp hnext
    cases hid
    cases hlast
    -- the new function stands behind the others, with the parameters that were given
    have hdeclared : GoesOn gives history (history ++ [.declareFunction int (testName k) params]) :=
      .act fun _ _ => nofun
    have hstep : ((Registry.ofRun history).declareFunction int (testName k) params).2
        = .ofRun (history ++ [.declareFunction int (testName k) params]) :=
      (Registry.after_concat Registry.withCTypes history (.declareFunction int (testName k) params)).symm
    have hnew : (Registry.ofRun (history ++ [.declareFunction int (testName k) params])).functionAt?
        ⟨(Registry.ofRun history).functions.size⟩ =
          some { returnType := int, name := ((Registry.ofRun history).symbols.intern (testName k)).1, params } := by
      rw [← hstep]
      exact Array.getElem?_push_size
    -- the rest is declared in the registry with the new function
    have hrest' : (l.mapM fun k => Declaring.newFunction (σ := σ) int (testName k) params)
        (.ofRun (history ++ [.declareFunction int (testName k) params]), notes) = .ok rest (r', notes') := by
      rw [← hstep]
      exact hrest
    obtain ⟨later, hlater, rfl, hnotes, hlength, hall⟩ := ih hrest'
    refine ⟨later, hdeclared.trans hlater, rfl, hnotes, congrArg (· + 1) hlength, fun other hother => ?_⟩
    rcases List.mem_cons.mp hother with rfl | hother
    · exact hlater.functionAt? hnew
    · exact hall other hother

/-- What a run declares before it draws: the history goes on, and there are as many generated functions as were asked for,
each with the parameters of the strategy. -/
theorem declareAll_goesOn (hs : s.DeclaresBy gives keeps) (hk : keeps history notes) {size : Nat} {outline : Outline}
    (h : declareAll s size (.ofRun history, notes) = .ok outline (r', notes')) :
    ∃ later, GoesOn gives history later ∧ r' = .ofRun later ∧ keeps later notes' ∧ outline.tests.length = size ∧
      ∃ mid, ∀ id ∈ outline.tests, ∃ fn, r'.functionAt? id = some fn ∧ fn.params = s.params mid outline.roles := by
  unfold declareAll at h
  obtain ⟨roles, ⟨r₁, notes₁⟩, hroles, h₁⟩ := bind_eq_ok.mp h
  obtain ⟨int, ⟨r₂, notes₂⟩, hint, h₂⟩ := bind_eq_ok.mp h₁
  obtain ⟨state, ⟨r₃, notes₃⟩, hstate, h₃⟩ := bind_eq_ok.mp h₂
  obtain ⟨tests, ⟨r₄, notes₄⟩, htests, h₄⟩ := bind_eq_ok.mp h₃
  obtain ⟨helpers, ⟨r₅, notes₅⟩, hhelpers, hlast⟩ := bind_eq_ok.mp h₄
  cases hstate
  cases hlast
  -- the roles are declared first: by acts, whatever the strategy makes them of
  obtain ⟨history₁, hgoes₁, rfl, hk₁⟩ := hs.roles history notes roles r₁ notes₁ hk hroles
  -- the look-up of a type changes nothing
  have hanswer : orFail ((Registry.ofRun history₁).type "int") (.ofRun history₁, notes₁) = .ok int (r₂, notes₂) := hint
  obtain ⟨-, hsame⟩ := orFail_eq_ok.mp hanswer
  cases hsame
  obtain ⟨history₂, hgoes₂, rfl, rfl, hlength, hall⟩ :
      ∃ later, GoesOn gives history₁ later ∧ r₄ = .ofRun later ∧ notes₄ = notes₁ ∧ tests.length = (List.range size).length ∧
        ∀ id ∈ tests, ∃ fn, r₄.functionAt? id = some fn ∧ fn.params = s.params notes₁ roles := newTests_goesOn _ htests
  -- then the helpers, by acts again, so that the parameters of the generated functions stay
  obtain ⟨history₃, hgoes₃, rfl, hk₃⟩ := hs.helpers history₂ _ helpers r' notes' (hs.later hgoes₂ hk₁) hhelpers
  refine ⟨history₃, hgoes₁.trans (hgoes₂.trans hgoes₃), rfl, hk₃, ?_, notes₄, fun id hid => ?_⟩
  · rw [hlength, List.length_range]
  · obtain ⟨fn, hfn, hparams⟩ := hall id hid
    obtain ⟨fn', hfn', hparams'⟩ := hgoes₃.functionAt? hfn
    exact ⟨fn', hfn', hparams'.trans hparams⟩

/-- Functions that are declared with parameters are declared. -/
theorem Registry.declares_of_params {r : Registry} {params : List VarId} {roles : Roles} {tests : List FuncId}
    (h : ∀ id ∈ tests, ∃ fn, r.functionAt? id = some fn ∧ fn.params = params) (pos : 0 < tests.length) :
    r.Declares { roles, tests } := by
  have htests : ∀ id ∈ tests, (r.functionAt? id).isSome := by
    intro id hid
    obtain ⟨fn, hfn, -⟩ := h id hid
    exact Option.isSome_iff_exists.mpr ⟨fn, hfn⟩
  -- there is a generated function, so there is a first one of all
  obtain ⟨id, rest, hlist⟩ := List.exists_cons_of_ne_nil (List.ne_nil_of_length_pos pos)
  obtain ⟨fn, hfn, -⟩ := h id (hlist ▸ List.mem_cons_self)
  obtain ⟨hlt, -⟩ := Array.getElem?_eq_some_iff.mp hfn
  have hzero : 0 < r.functions.size := Nat.lt_of_le_of_lt (Nat.zero_le _) hlt
  exact ⟨htests, Option.isSome_iff_exists.mpr ⟨_, Array.getElem?_eq_getElem hzero⟩⟩

end Declarations

/-! ## Calls that are drawn

The registry that is drawn with is that of the run after some history.  Strategies answer with calls that it has given out;
below these are always calls that suit (`issued_eq`).  The lemmas follow the functions that draw, from a single call to all
bodies; what they say of a result is that it is there only with calls that suit (`Brings`). -/

section Draws

variable {s : Strategy σ} {keeps : List Act → σ → Prop} {f : Frame}

/-- A call that is drawn suits. -/
theorem drawCall_brings (hs : s.BuildsOn keeps) (hf : (Registry.ofRun history).Declares f) {adjusted : Expr}
    (ha : adjusted.All (Expr.Suits (.ofRun history))) :
    Brings (keeps history) (drawCall s (.ofRun history) f adjusted) fun e => e.All (Expr.Suits (.ofRun history)) := by
  unfold drawCall
  refine (Brings.below f.size).bind fun n _ => Brings.notes_bind fun notes hk => Brings.orFail fun e he => ?_
  -- the function is a generated one, or the first of all if there is none at that position
  have hdeclared : ((Registry.ofRun history).functionAt? (f.tests[n]?.getD ⟨0⟩)).isSome := by
    cases ht : f.tests[n]? with
    | none => exact hf.first
    | some id => exact hf.tests id (List.mem_of_getElem? ht)
  obtain ⟨rfl, hsuits⟩ := Registry.suits_of_call hdeclared he
  have hargs := hs.callArgs history notes f.roles adjusted hk
  rw [issued_eq] at hargs
  exact Expr.all_call.mpr ⟨hsuits, hargs ha⟩

/-- The calls in a statement that is drawn suit. -/
theorem drawOfKind_brings (hs : s.BuildsOn keeps) (hf : (Registry.ofRun history).Declares f) (int : ValueType)
    (ops : Operators) (kind : StatementKind) :
    Brings (keeps history) (drawOfKind s (.ofRun history) f int ops kind)
      fun st => st.All (Expr.Suits (.ofRun history)) := by
  -- in all kinds the first argument of the call is the argument of the function less something
  have hless : ∀ op e, e.All (Expr.Suits (.ofRun history)) →
      (Expr.binary (.var f.roles.arg) op e).All (Expr.Suits (.ofRun history)) :=
    fun op e he => all_suits_binary op (all_suits_var _) he
  -- the call is drawn first; the rest of the statement is made of variables and numbers
  cases kind with
  | guardedCall =>
    refine (drawCall_brings hs hf (hless _ _ (all_suits_int 1))).bind fun call hcall => Brings.pure ?_
    refine Stmt.all_whenever.mpr ⟨hless _ _ (all_suits_int 0), fun st hst => ?_⟩
    obtain rfl := List.mem_singleton.mp hst
    exact Stmt.all_assign.mpr ⟨all_suits_var _, hcall⟩
  | countedLoop =>
    refine (drawCall_brings hs hf (hless _ _ (all_suits_var _))).bind fun call hcall => Brings.pure ?_
    refine Stmt.all_count.mpr ⟨all_suits_int 1, all_suits_binary _ (all_suits_var _) (all_suits_var _),
      Stmt.all_assign.mpr ⟨all_suits_var _, all_suits_int 1⟩, fun st hst => ?_⟩
    obtain rfl := List.mem_singleton.mp hst
    exact Stmt.all_assign.mpr ⟨all_suits_var _, hcall⟩
  | conditionedLoop =>
    refine (drawCall_brings hs hf (hless _ _ (all_suits_int 1))).bind fun call hcall => ?_
    refine Brings.notes_bind fun notes hk => ?_
    have hguard := fun e => hs.loopGuard history notes f.roles e hk
    rw [issued_eq] at hguard
    refine (Brings.orFail hguard).bind fun condition hc => Brings.pure ?_
    refine Stmt.all_loop.mpr ⟨hc, fun st hst => ?_⟩
    obtain rfl := List.mem_singleton.mp hst
    exact Stmt.all_assign.mpr ⟨all_suits_var _, hcall⟩
  | read => exact issued_eq history ▸ hs.read history f.roles f.size
  | write =>
    have hwrite := hs.write history f.roles
    rw [issued_eq] at hwrite
    exact (drawCall_brings hs hf (hless _ _ (all_suits_int 2))).bind fun call hcall => hwrite call f.size hcall

/-- The calls in statements that are drawn one after the other suit, as the registry stays as it is. -/
theorem drawStatements_brings (hs : s.BuildsOn keeps) (hf : (Registry.ofRun history).Declares f) (int : ValueType)
    (ops : Operators) (count : Nat) :
    Brings (keeps history) (drawStatements s (.ofRun history) f int ops count)
      fun b => ∀ st ∈ b, st.All (Expr.Suits (.ofRun history)) := by
  induction count with
  | zero => exact .pure nofun
  | succ count ih =>
    have hkind : Brings (keeps history) (StatementKind.draw (σ := σ)) fun _ => True :=
      (Brings.below _).bind fun _ _ => .pure trivial
    refine hkind.bind fun kind _ => (drawOfKind_brings hs hf int ops kind).bind fun st hst => ih.bind fun rest hrest => ?_
    exact .pure (List.forall_mem_cons.mpr ⟨hst, hrest⟩)

/-- The calls in a body that is drawn suit. -/
theorem drawBody_brings (hs : s.BuildsOn keeps) (hf : (Registry.ofRun history).Declares f) (number budget : Nat) :
    Brings (keeps history) (drawBody s (.ofRun history) f number budget)
      fun b => ∀ e ∈ blockParts b, e.Suits (.ofRun history) := by
  unfold drawBody
  refine (Brings.orFail fun _ _ => trivial).bind fun int _ => (Brings.orFail fun _ _ => trivial).bind fun ops _ => ?_
  refine (drawStatements_brings hs hf int ops budget).bind fun drawn hdrawn => Brings.pure ?_
  -- the trace line is a text as it stands, in which there are no calls
  have hraw : ∀ text, (Stmt.raw text).All (Expr.Suits (.ofRun history)) := fun _ => nofun
  -- what stands around the drawn statements is the trace, the start of the sum, and its return
  refine forall_blockParts.mpr fun st hst => ?_
  simp only [List.mem_append, List.mem_cons, List.not_mem_nil, or_false] at hst
  rcases hst with ((rfl | rfl | rfl) | hst) | rfl
  · exact hraw _
  · exact hraw _
  · exact all_suits_int 0
  · exact hdrawn st hst
  · exact all_suits_var _

/-- The calls that `main` starts with suit. -/
theorem drawStarts_brings (hs : s.BuildsOn keeps) (hf : (Registry.ofRun history).Declares f) (plus : Operation)
    (count : Nat) : Brings (keeps history) (drawStarts s (.ofRun history) f plus count)
      fun b => ∀ st ∈ b, st.All (Expr.Suits (.ofRun history)) := by
  induction count with
  | zero => exact .pure nofun
  | succ count ih =>
    refine (Brings.upTo _).bind fun start _ => (drawCall_brings hs hf (all_suits_int start)).bind fun call hcall => ?_
    refine ih.bind fun rest hrest => Brings.pure ?_
    exact List.forall_mem_cons.mpr ⟨Stmt.all_assign.mpr ⟨all_suits_var _, hcall⟩, hrest⟩

/-- The calls in `main` suit. -/
theorem drawMain_brings (hs : s.BuildsOn keeps) (hf : (Registry.ofRun history).Declares f) :
    Brings (keeps history) (drawMain s (.ofRun history) f) fun b => ∀ e ∈ blockParts b, e.Suits (.ofRun history) := by
  unfold drawMain
  refine (Brings.orFail fun _ _ => trivial).bind fun int _ => (Brings.orFail fun _ _ => trivial).bind fun plus _ => ?_
  refine (hs.prelude history f.roles f.size).bind fun prelude hprelude => ?_
  rw [issued_eq] at hprelude
  refine (drawStarts_brings hs hf plus f.size).bind fun starts hstarts => Brings.pure ?_
  refine forall_blockParts.mpr fun st hst => ?_
  simp only [List.mem_append, List.mem_cons, List.not_mem_nil, or_false, List.cons_append] at hst
  rcases hst with rfl | (hst | hst) | rfl
  · exact all_suits_int 0
  · exact hprelude st hst
  · exact hstarts st hst
  · exact all_suits_var _

/-- Bodies are drawn, each into the registry before the next; so the history goes on by bodies whose calls were given out. -/
theorem drawBodies_goesOn (hs : s.BuildsOn keeps) (budget : Nat) (list : List (Nat × FuncId)) :
    ∀ {history : List Act}, (Registry.ofRun history).Declares f → ∀ g notes r' g' notes', keeps history notes →
      drawBodies s f budget (.ofRun history) list (g, notes) = .ok r' (g', notes') →
      ∃ later, GoesOn Block.Issued history later ∧ r' = .ofRun later ∧ keeps later notes' := by
  induction list with
  | nil =>
    rintro history hf g notes r' g' notes' hk h
    cases h
    exact ⟨history, .refl history, rfl, hk⟩
  | cons e list ih =>
    intro history hf g notes r' g' notes' hk h
    obtain ⟨number, id⟩ := e
    obtain ⟨body, ⟨g₁, notes₁⟩, hbody, hrest⟩ := bind_eq_ok.mp h
    obtain ⟨hsuits, hk₁⟩ := drawBody_brings hs hf number budget g notes body g₁ notes₁ hk hbody
    -- the body is given to its function, and what is drawn next is drawn with the registry after that
    have hset : GoesOn Block.Issued history (history ++ [.setBody id body]) := by
      refine .step (.refl history) fun id' body' he e he' => issuedBy_iff_suits.mpr ?_
      cases he
      exact hsuits e he'
    have hstep : (Registry.ofRun history).setBody id body = .ofRun (history ++ [.setBody id body]) :=
      (Registry.after_concat Registry.withCTypes history (.setBody id body)).symm
    rw [hstep] at hrest
    obtain ⟨later, hlater, hr', hk'⟩ := ih (hf.goesOn hset) g₁ notes₁ r' g' notes' (hs.later hset hk₁) hrest
    exact ⟨later, hset.trans hlater, hr', hk'⟩

end Draws

/-! ## Functions of a run

Here the parts of a run are put together: what is declared, the bodies in turn, and `main` last. -/

section Runs

variable {s : Strategy σ} {gives : List Act → Block → Prop} {keeps : List Act → σ → Prop} {r : Registry}
  {config : SynthesisConfig} {g g' : Source} {notes notes' : σ}

/-- The calls in all functions of a run suit. -/
theorem assemble_sound (hs : s.BuildsOn keeps) (hk : keeps [] notes) {a : Assembly}
    (h : assemble s config (g, notes) = .ok a (g', notes')) : a.registry.Sound := by
  -- what the run has come to, part by part
  obtain ⟨hne, outline, r₁, notes₁, r₂, g₂, notes₂, mainBody, int, hdeclarations, hbodies, hmain, -, rfl⟩ :=
    assemble_eq_ok.mp h
  obtain ⟨history₁, hgoes₁, rfl, hk₁, hlength, mid, hall⟩ := declareAll_goesOn hs.toDeclaresBy hk hdeclarations
  have hf : (Registry.ofRun history₁).Declares { roles := outline.roles, tests := outline.tests } :=
    Registry.declares_of_params hall (hlength ▸ Nat.pos_of_ne_zero hne)
  obtain ⟨history₂, hgoes₂, rfl, hk₂⟩ := drawBodies_goesOn hs _ _ hf _ _ _ _ _ hk₁ hbodies
  obtain ⟨hsuits, -⟩ := drawMain_brings hs (hf.goesOn hgoes₂) _ _ _ _ _ hk₂ hmain
  -- `main` is declared behind all other functions, and its body is given last
  have hdeclared : (Registry.ofRun history₂).Develops ((Registry.ofRun history₂).declareFunction int "main" []).2 :=
    .act (.declareFunction int "main" []) trivial
  have hset : ((Registry.ofRun history₂).declareFunction int "main" []).2.Develops
      (((Registry.ofRun history₂).declareFunction int "main" []).2.setBody
        ⟨(Registry.ofRun history₂).functions.size⟩ mainBody) :=
    .act (.setBody ⟨(Registry.ofRun history₂).functions.size⟩ mainBody) fun e he => hdeclared.suits (hsuits e he)
  have hdevelops : Registry.withCTypes.Develops (.ofRun history₂) := (hgoes₁.trans hgoes₂).ofRun_develops
  exact (hdevelops.trans (hdeclared.trans hset)).sound Registry.withCTypes_sound

/-! ## Strategies that come to no program

The run is followed in the other direction, from the program to the call that it would need.  The bodies of the generated
functions do not matter, as there need not be any statement in them; it is `main` that always draws a call. -/

/-- A strategy comes to no call of functions whose parameters are never as many as its arguments. -/
theorem drawCall_ne_ok {f : Frame} {mid : σ} (harity : ∀ id ∈ f.tests, r.arity id = (s.params mid f.roles).length)
    (hargs : ∀ notes first, (s.callArgs notes f.roles first).length ≠ (s.params mid f.roles).length)
    (pos : 0 < f.size) (fits : f.size ≤ 2 ^ 64) (adjusted e : Expr) (state : Source × σ) :
    drawCall s r f adjusted (g, notes) ≠ .ok e state := by
  intro h
  obtain ⟨n, ⟨g₁, notes₁⟩, hn, hnext⟩ := bind_eq_ok.mp h
  have hbelow : Gives (Drawing.below f.size) (g, notes) fun k after => k < f.size ∧ after.2 = notes :=
    Drawing.below_gives pos fits
  obtain ⟨k, after, hk, hlt, -⟩ := hbelow
  rw [hk] at hn
  cases hn
  have htest : f.tests[n]? = some f.tests[n] := List.getElem?_eq_getElem hlt
  -- the function that is drawn takes as many arguments as there are parameters, and these are not as many
  have hcall : orFail (r.call (f.tests[n]?.getD ⟨0⟩) (s.callArgs notes₁ f.roles adjusted)) (g₁, notes₁) = .ok e state := hnext
  have hparams : r.arity (f.tests[n]?.getD ⟨0⟩) = (s.params mid f.roles).length := by
    rw [htest, Option.getD_some]
    exact harity f.tests[n] (List.getElem_mem hlt)
  rw [Registry.call, if_neg fun hlength => hargs notes₁ adjusted (hlength.trans hparams)] at hcall
  cases hcall

/-- A `main` for one function or more holds a call, so that it is not drawn if no call is. -/
theorem drawMain_ne_ok {f : Frame} (pos : 0 < f.size)
    (hcall : ∀ g notes adjusted e state, drawCall s r f adjusted (g, notes) ≠ .ok e state) (state : Source × σ) (b : Block)
    (state' : Source × σ) : drawMain s r f state ≠ .ok b state' := by
  intro h
  unfold drawMain at h
  obtain ⟨int, _, -, h₁⟩ := bind_eq_ok.mp h
  obtain ⟨plus, _, -, h₂⟩ := bind_eq_ok.mp h₁
  obtain ⟨prelude, _, -, h₃⟩ := bind_eq_ok.mp h₂
  obtain ⟨starts, _, hstarts, -⟩ := bind_eq_ok.mp h₃
  -- there is a first call
  obtain ⟨count, hcount⟩ := Nat.exists_eq_succ_of_ne_zero (Nat.ne_of_gt pos)
  rw [hcount] at hstarts
  obtain ⟨start, ⟨g₁, notes₁⟩, -, h₄⟩ := bind_eq_ok.mp hstarts
  obtain ⟨call, _, hdrawn, -⟩ := bind_eq_ok.mp h₄
  exact hcall _ _ _ _ _ hdrawn

/-- A strategy that declares by acts, and whose arguments are never as many as its parameters, comes to no program: what is
declared keeps its parameters, whatever bodies are drawn, and `main` is in want of a call. -/
theorem synthesize_ne_ok (hs : s.DeclaresBy gives keeps) (hk : keeps [] notes)
    (hargs : ∀ notes mid roles first, (s.callArgs notes roles first).length ≠ (s.params mid roles).length)
    (fits : config.functions ≤ 2 ^ 64) (p : Program) : synthesize s config (g, notes) ≠ .ok p (g', notes') := by
  intro h
  obtain ⟨a, ⟨g₁, notes₁⟩, texts, hassembled, -⟩ := synthesize_eq_ok.mp h
  obtain ⟨hne, outline, r₁, notes₁, r₂, g₂, notes₂, mainBody, int, hdeclarations, hbodies, hmain, -⟩ :=
    assemble_eq_ok.mp hassembled
  obtain ⟨history₁, -, rfl, -, hlength, mid, hall⟩ := declareAll_goesOn hs hk hdeclarations
  -- the functions that are drawn with are as many as were asked for
  have hsize : Frame.size { roles := outline.roles, tests := outline.tests } = config.functions := hlength
  have pos : 0 < Frame.size { roles := outline.roles, tests := outline.tests } := hsize ▸ Nat.pos_of_ne_zero hne
  have fits' : Frame.size { roles := outline.roles, tests := outline.tests } ≤ 2 ^ 64 := hsize ▸ fits
  have hsame := drawBodies_yields s _ _ _ _ _ _ hbodies
  -- bodies change no parameters, so that the functions still have those of the strategy
  have harity : ∀ id ∈ outline.tests, r₂.arity id = (s.params mid outline.roles).length := by
    intro id hid
    obtain ⟨fn, hfn, hparams⟩ := hall id hid
    rw [hsame.arity, Registry.arity, hfn, ← hparams]
    rfl
  have hnone : ∀ g notes adjusted e state,
      drawCall s r₂ { roles := outline.roles, tests := outline.tests } adjusted (g, notes) ≠ .ok e state :=
    fun g notes => drawCall_ne_ok harity (fun notes first => hargs notes mid outline.roles first) pos fits'
  exact drawMain_ne_ok pos hnone _ _ _ hmain

end Runs

/-- A program that is generated with an array comes from a run. -/
theorem synthesize_of_generate {config : SynthesisConfig} {g : Source} {p : Program} (hs : config.strategy = .tree)
    (h : generate config g = .ok p) : ∃ g', synthesize arrayBacked config (g, ()) = .ok p (g', ()) := by
  rw [generate, hs] at h
  obtain ⟨after, hrun⟩ := outcome_eq_ok.mp h
  exact ⟨after.1, hrun⟩

/-! ## Calls suit

The three parts are about a registry, about strategies that build on it, and about strategies whose arguments are the wrong
number. -/

/-- **Calls have as many arguments as they should.**  A call that a registry gave out suits it in every later state.  If a
strategy hands out only calls that the registry of the run has given out, then all functions of its programs have bodies,
and in them all calls suit.  And if a strategy declares by acts, whatever the bodies are that it gives, and its arguments are
never as many as its parameters, then it comes to no program. -/
theorem calls_suit :
    (∀ (r : Registry) (history later : List Act) (b : Block), (∀ e ∈ blockParts b, e.IssuedBy r history) →
      ∀ e ∈ blockParts b, e.Suits (r.after (history ++ later))) ∧
    (∀ {σ : Type} (s : Strategy σ) (keeps : List Act → σ → Prop), s.BuildsOn keeps →
      ∀ (config : SynthesisConfig) (g g' : Source) (notes notes' : σ), keeps [] notes →
        ∀ p, synthesize s config (g, notes) = .ok p (g', notes') →
          ∃ a mid texts, assemble s config (g, notes) = .ok a mid ∧
            sections a.registry a.tests a.helpers a.main = .ok texts ∧ p.source = joinSections texts ∧
            ∀ id ∈ a.functions, ∃ body, a.registry.bodyOf id = some body ∧ ∀ e ∈ blockParts body, e.Suits a.registry) ∧
    ∀ {σ : Type} (s : Strategy σ) (gives : List Act → Block → Prop) (keeps : List Act → σ → Prop), s.DeclaresBy gives keeps →
      (∀ notes mid roles first, (s.callArgs notes roles first).length ≠ (s.params mid roles).length) →
      ∀ (config : SynthesisConfig) (g g' : Source) (notes notes' : σ), keeps [] notes → config.functions ≤ 2 ^ 64 →
        ∀ p, synthesize s config (g, notes) ≠ .ok p (g', notes') := by
  refine ⟨fun r history later b h e he => suits_of_issued (h e he) later, ?_, ?_⟩
  · intro σ s keeps hs config g g' notes notes' hk p h
    obtain ⟨a, ⟨g₁, notes₁⟩, texts, hassembled, hsections, rfl, -⟩ := synthesize_eq_ok.mp h
    refine ⟨a, (g₁, notes₁), texts, hassembled, hsections, rfl, fun id hid => ?_⟩
    obtain ⟨body, hbody⟩ := bodyOf_of_sections hsections id hid
    exact ⟨body, hbody, assemble_sound hs hk hassembled id body hbody⟩
  · intro σ s gives keeps hs hargs config g g' notes notes' hk fits p
    exact synthesize_ne_ok hs hk hargs fits p

/-- The strategy whose functions share an array, with three arguments for every call. -/
def overloaded : Strategy Unit := { arrayBacked with callArgs := fun _ _ first => [first, first, first] }

/-- Instances of all three: nested calls that are given out before a declaration, a program of one function, and `overloaded`
with a budget of nothing. -/
theorem overloaded_suit :
    (∀ e ∈ blockParts [.effect (.call ⟨0⟩ [.call ⟨0⟩ [.int 1]])],
      e.Suits (Registry.withCTypes.after ([.declareVariable intType "n", .declareFunction intType "f" [⟨0⟩]]
        ++ [.declareFunction intType "g" []]))) ∧
    (∃ p after a, synthesize arrayBacked { functions := 1 } (.ofSeed 0, ()) = .ok p after ∧
      ∀ id ∈ Assembly.functions a, ∃ body, a.registry.bodyOf id = some body ∧ ∀ e ∈ blockParts body, e.Suits a.registry) ∧
    ∀ g p, synthesize overloaded { functions := 1, statements := some 0 } (.ofSeed 0, ()) ≠ .ok p (g, ()) := by
  refine ⟨calls_suit.1 _ _ _ _ ?_, ?_, fun g p => ?_⟩
  · -- the inner call and the outer one are given out for one argument
    intro e he
    simp only [blockParts, Stmt.parts, Expr.parts, Expr.partsOfArgs, List.append_nil, List.mem_cons, List.not_mem_nil,
      or_false] at he
    rcases he with rfl | rfl | rfl
    · exact ⟨_, [], (List.append_nil _).symm, rfl, rfl⟩
    · exact ⟨_, [], (List.append_nil _).symm, rfl, rfl⟩
    · trivial
  · obtain ⟨s, p, -, hp, -⟩ := generate_sketch { functions := 1 } (.ofSeed 0) (by decide) (by decide)
    obtain ⟨g, hrun⟩ := synthesize_of_generate rfl hp
    obtain ⟨a, -, -, -, -, -, hall⟩ := calls_suit.2.1 arrayBacked _ arrayBacked_buildsOn _ _ g () () trivial p hrun
    exact ⟨p, (g, ()), a, hrun, hall⟩
  · have hdeclares : overloaded.DeclaresBy Block.Issued fun _ _ => True :=
      { arrayBacked_buildsOn.toDeclaresBy with }
    refine calls_suit.2.2 overloaded _ _ hdeclares (fun _ mid roles first => ?_) _ _ g () () trivial (by decide) p
    -- there are one or two parameters, and three arguments
    show 3 ≠ (roles.arg :: roles.arr.toList).length
    cases roles.arr with
    | none => exact (by decide : 3 ≠ 1)
    | some v => exact (by decide : 3 ≠ 2)

end SeedCorpus
