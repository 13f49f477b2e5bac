/-
  The statements of generated programs are right.

  1. **What is known where** (`Scope.Holds`): certain names stand for certain variables, and all names that are known are
     among a few fixed ones, so that none of them hides a function.  Blocks and declarations of other names keep this up.

  2. **Idioms** (`Idiom.Sound`): what an idiom says of calls, reads, writes and the beginning of `main` is right wherever the
     shared variables are known.  With that each move is right and leaves the scope as it is (`Move.typed`), whatever its
     numbers; so a body is right, and so is `main`.

  3. **Two idioms** (`ArrayBacked.idiom_sound`, `FileBacked.idiom_sound`): here, and only here, do the shapes of reads and
     writes, the helpers and their lines matter.
-/
import SeedCorpus.Proofs.Rendering.Programs
import SeedCorpus.Proofs.Rendering.Texts
import SeedCorpus.Proofs.Typing.Rules

namespace SeedCorpus

variable {r : Registry} {s : Scope} {c : Context} {i : Idiom} {size : Nat} {v : VarId} {name type : String}

/-! ## What is known

A scope is looked up from what was declared last.  The lemmas on `Scope.resolve` say what one declaration does, and
`Scope.Holds` carries on what several of them have done. -/

/-- The names that functions of generated programs know. -/
def localNames : List String := ["arg", "sum", "i", "arr", "path", "value", "total", "f"]

/-- Variables are known by their names, and nothing else is known than what has a name of generated functions. -/
structure Scope.Holds (r : Registry) (s : Scope) (vs : List (VarId × String × String)) : Prop where
  /-- The names stand for the variables. -/
  found : ∀ x ∈ vs, s.resolve r x.2.1 = some (.variable x.1)
  /-- All names are those of generated functions. -/
  names : ∀ b ∈ s.known, b.name r ∈ localNames

namespace Scope

variable {b : Binding}

/-- A name stands for what was declared last. -/
theorem resolve_declare_self (s : Scope) (b : Binding) : (s.declare b).resolve r (b.name r) = some b :=
  List.find?_cons_of_pos (by simp)

/-- Other names stand for what they stood for. -/
theorem resolve_declare_ne (hne : b.name r ≠ name) : (s.declare b).resolve r name = s.resolve r name :=
  List.find?_cons_of_neg (by simpa using hne)

/-- Without parameters every name is free. -/
theorem free_ofParams_nil (r : Registry) (name : String) : (ofParams []).Free r name := nofun

/-- A name stays free when another one is declared. -/
theorem Free.declare (h : s.Free r name) (hne : b.name r ≠ name) : (s.declare b).Free r name := by
  intro b' hb'
  rcases List.mem_cons.mp hb' with rfl | hb'
  · exact hne
  · exact h b' hb'

/-- The same, by the name of the variable. -/
theorem Free.declareVariable {other : String} (h : s.Free r name) (hr : r.Has v other type) (hne : other ≠ name) :
    (s.declare (.variable v)).Free r name := by
  refine h.declare ?_
  rw [Binding.name, hr.variableName]
  exact hne

end Scope

namespace Scope.Holds

variable {vs ws : List (VarId × String × String)}

theorem ofParams_nil (r : Registry) : (Scope.ofParams []).Holds r [] := ⟨nofun, nofun⟩

/-- A variable that is known by its name, and has its type, can be used. -/
theorem shows (h : s.Holds r vs) (hv : (v, name, type) ∈ vs) (hr : r.Has v name type) : s.Shows r v type where
  found := by rw [hr.variableName]; exact h.found _ hv
  typed := hr.typeName

theorem sub (h : s.Holds r vs) (hsub : ∀ x ∈ ws, x ∈ vs) : s.Holds r ws where
  found x hx := h.found x (hsub x hx)
  names := h.names

/-- A new block knows the same. -/
theorem enter (h : s.Holds r vs) : s.enter.Holds r vs where
  found := h.found
  names := h.names

/-- No other name is known. -/
theorem resolve_eq_none (h : s.Holds r vs) (hn : name ∉ localNames) : s.resolve r name = none := by
  refine List.find?_eq_none.mpr fun b hb => ?_
  have hne : b.name r ≠ name := fun he => hn (he ▸ h.names b hb)
  simpa using hne

/-- A declaration of another name hides nothing. -/
theorem declare {b : Binding} (h : s.Holds r vs) (hb : b.name r ∈ localNames) (hne : ∀ x ∈ vs, b.name r ≠ x.2.1) :
    (s.declare b).Holds r vs where
  found x hx := by
    rw [resolve_declare_ne (hne x hx)]
    exact h.found x hx
  names := by
    intro b' hb'
    rcases List.mem_cons.mp hb' with rfl | hb'
    · exact hb
    · exact h.names b' hb'

/-- A variable is known behind its declaration. -/
theorem declareVariable (h : s.Holds r vs) (hr : r.Has v name type) (hn : name ∈ localNames)
    (hne : ∀ x ∈ vs, name ≠ x.2.1) : (s.declare (.variable v)).Holds r ((v, name, type) :: vs) := by
  have hname : (Binding.variable v).name r = name := hr.variableName
  have hrest : (s.declare (.variable v)).Holds r vs := h.declare (hname ▸ hn) (hname ▸ hne)
  refine ⟨fun x hx => ?_, hrest.names⟩
  rcases List.mem_cons.mp hx with rfl | hx
  · rw [← hname]
    exact resolve_declare_self s _
  · exact hrest.found x hx

end Scope.Holds

/-! ## Names of functions

Functions are found by name as well, and a variable of the same name would hide them.  The names that are declared in
functions are few, and none of them is that of a function. -/

/-- No generated function has one of these names. -/
theorem testName_notLocal (k : Nat) : testName k ∉ localNames := by
  intro hm
  have hnone : ∀ name ∈ localNames, "test_".toList.isPrefixOf name.toList = false := by decide
  exact testName_ne (hnone _ hm) rfl

/-! ## Idioms -/

/-- The variables that calls, reads and writes refer to. -/
def Idiom.shared (i : Idiom) : List (VarId × String × String) := i.arr.toList.map fun v => (v, "arr", "int*")

/-- The functions of a program can be called. -/
structure Context.Serves (c : Context) (i : Idiom) (size : Nat) : Prop where
  /-- All that is referred to is known. -/
  ground : Ground c.registry i size
  /-- The generated functions can be called. -/
  tests : ∀ k < size, ⟨k⟩ ∈ c.callable
  /-- The functions of fixed content can be called. -/
  helpers : ∀ h ∈ i.helpers, h.id ∈ c.callable

/-- What an idiom says is right where its shared variables are known. -/
structure Idiom.Sound (i : Idiom) (size : Nat) : Prop where
  /-- The roles have their names. -/
  roles : i.NamesRoles
  /-- The arguments of a call. -/
  args : ∀ {c s first}, c.Serves i size → s.Holds c.registry i.shared → Expr.HasType c s first "int" →
    Expr.HaveTypes c s (i.args first) (i.params.map c.registry.typeName)
  /-- The variable of the condition. -/
  guard : i.guard = argVar ∨ i.guard = sumVar
  /-- A value that is read. -/
  value : ∀ {c s} place, c.Serves i size → s.Holds c.registry i.shared → Expr.HasType c s (i.value place) "int"
  /-- A value that is stored. -/
  store : ∀ {c s call} place, c.Serves i size → s.Holds c.registry i.shared → Expr.HasType c s call "int" →
    Stmt.Typed c s (i.store place call) s
  /-- The statements of `main` in front of the calls. -/
  prelude : ∀ {c s values}, c.Serves i size → values ≠ [] → s.Holds c.registry [(sumVar, "sum", "int")] →
    s.Free c.registry "arr" →
    ∃ t, Block.Typed c s (i.prelude values) t ∧ t.Holds c.registry ((sumVar, "sum", "int") :: i.shared)
  /-- The beginning of a generated function. -/
  entry : ∀ {r}, Ground r i size → (Scope.ofParams i.params).Holds r ((argVar, "arg", "int") :: i.shared) ∧
    (Scope.ofParams i.params).Free r "sum" ∧ (i.params.map r.variableName).Nodup

/-- A function of fixed content is right, whatever can be called. -/
structure Helper.Sound (h : Helper) (r : Registry) : Prop where
  /-- Its parameters have different names. -/
  distinct : (h.params.map r.variableName).Nodup
  /-- Its statements are right. -/
  statements : ∀ callable, ∃ s,
    Block.Typed { registry := r, callable, returns := h.returnType } (.ofParams h.params) h.body s
  /-- If it has a result, it ends with one. -/
  ends : h.returnType ≠ "void" → ∃ front value, h.body = front ++ [Stmt.result value]

/-! ## Plain texts

  Names and paths stand in quotes as they are, so that the typing rules ask that nothing in them means something there. -/

/-- Whether a text is plain can be tried, character by character. -/
theorem isPlain_of_all {text : String} (h : text.toList.all fun ch => ch ≠ '\x22' && ch ≠ '\\' && ch ≠ '\n') :
    IsPlain text := by
  intro ch hch
  simpa [and_assoc] using List.all_eq_true.mp h ch hch

/-- The names of files are plain. -/
theorem isPlain_append {front : String} (h : IsPlain front) (place : Nat) : IsPlain (front ++ toString place) := by
  intro ch hch
  rw [String.toList_append, List.mem_append] at hch
  rcases hch with hch | hch
  · exact h ch hch
  · have hdigit := isDigit_of_mem_toString hch
    refine ⟨?_, ?_, ?_⟩ <;> rintro rfl <;> revert hdigit <;> decide

/-! ## Moves and bodies

The lemmas are those of the judgement, in the order in which statements are built: operations, additions and declarations,
calls, moves, and at last the two kinds of bodies. -/

/-- The variables that moves refer to. -/
def Idiom.locals (i : Idiom) : List (VarId × String × String) :=
  (sumVar, "sum", "int") :: (argVar, "arg", "int") :: i.shared

theorem Idiom.shared_names (i : Idiom) : ∀ x ∈ i.shared, x.2.1 = "arr" := by
  intro x hx
  obtain ⟨v, -, rfl⟩ := List.mem_map.mp hx
  rfl

section Roles

variable (hroles : SaysRoles c.registry)
include hroles

/-- Operations on integers give integers. -/
theorem binary_typed (op : Operation) (hop : op ∈ [cOperators.plus, cOperators.minus, cOperators.div, cOperators.gt])
    {lhs rhs : Expr} (hl : Expr.HasType c s lhs "int") (hr : Expr.HasType c s rhs "int") :
    Expr.HasType c s (.binary lhs op rhs) "int" := by
  refine .binary hl ?_ hr
  simp only [List.mem_cons, List.not_mem_nil, or_false] at hop
  rcases hop with rfl | rfl | rfl | rfl
  · rw [hroles.plus]; decide
  · rw [hroles.minus]; decide
  · rw [hroles.div]; decide
  · rw [hroles.gt]; decide

theorem isPositive_typed (hv : s.Shows c.registry v "int") : Expr.HasType c s (isPositive v) "int" :=
  binary_typed hroles _ (by simp) (.var hv) .int

/-- An integer can be added to a place. -/
theorem added_typed (target : Place) (ht : Expr.HasType c s target.toExpr "int") {value : Expr}
    (hvalue : Expr.HasType c s value "int") : Stmt.Typed c s (.assign target (some cOperators.plus) value) s := by
  refine .assign ht (fun o ho => ?_) hvalue
  cases ho
  rw [hroles.plus]
  decide

/-- An integer can be added to a variable. -/
theorem update_typed (hv : s.Shows c.registry v "int") {value : Expr} (hvalue : Expr.HasType c s value "int") :
    Stmt.Typed c s (.update v cOperators.plus value) s :=
  added_typed hroles (.var v) (.var hv) hvalue

/-- A variable is declared with a number, and known from then on. -/
theorem declared_typed {vs : List (VarId × String × String)} (hs : s.Holds c.registry vs)
    (hv : c.registry.Has v name "int") (hlocal : name ∈ localNames) (hfree : s.Free c.registry name)
    (hne : ∀ x ∈ vs, name ≠ x.2.1) (value : Int) :
    Stmt.Typed c s (.scalar intType v (.int value)) (s.declare (.variable v)) ∧
      (s.declare (.variable v)).Holds c.registry ((v, name, "int") :: vs) := by
  refine ⟨.scalar ?_ ?_ ?_, hs.declareVariable hv hlocal hne⟩
  · rw [hroles.int, hv.typeName]
  · rw [hv.typeName]
    exact .int
  · rw [hv.variableName]
    exact hfree

end Roles

section Moves

variable (hc : c.Serves i size) (hi : i.Sound size)
include hc hi

theorem Context.Serves.saysRoles : SaysRoles c.registry := hc.ground.saysRoles hi.roles

/-- A generated function can be called with an integer: it is callable, its name is not hidden, and the arguments are right. -/
theorem call_typed (hs : s.Holds c.registry i.shared) {callee : Nat} (hcallee : callee < size) {first : Expr}
    (hf : Expr.HasType c s first "int") : Expr.HasType c s (i.call callee first) "int" :=
  .call (hc.tests callee hcallee) (hc.ground.tests callee hcallee) (hs.resolve_eq_none (testName_notLocal callee))
    (hi.args hc hs hf)

/-- A move is right and leaves the scope as it is. -/
theorem Move.typed (hs : s.Holds c.registry i.locals) {m : Move} (hm : m.Fits size i.places) :
    Stmt.Typed c s (m.stmt i) s := by
  have hroles := hc.saysRoles hi
  -- what is known outside is known inside the blocks of the move, so these are stated for every scope
  have hshared : ∀ {t : Scope}, t.Holds c.registry i.locals → t.Holds c.registry i.shared := fun h =>
    h.sub fun x hx => List.mem_cons_of_mem _ (List.mem_cons_of_mem _ hx)
  have hsum : ∀ {t : Scope}, t.Holds c.registry i.locals → t.Shows c.registry sumVar "int" := fun h =>
    h.shows List.mem_cons_self (hc.ground.has_sum hi.roles)
  have harg : ∀ {t : Scope}, t.Holds c.registry i.locals → t.Shows c.registry argVar "int" := fun h =>
    h.shows (List.mem_cons_of_mem _ List.mem_cons_self) (hc.ground.has_arg hi.roles)
  have hless : ∀ op ∈ [cOperators.plus, cOperators.minus, cOperators.div, cOperators.gt], ∀ n,
      Expr.HasType c s.enter (.binary (.var argVar) op (.int n)) "int" := fun op hop n =>
    binary_typed hroles op hop (.var (harg hs.enter)) .int
  -- one case for each kind of move
  cases m with
  | guardedCall callee =>
    have hcall := call_typed hc hi (hshared hs.enter) hm (hless cOperators.minus (by simp) 1)
    exact .whenever (isPositive_typed hroles (harg hs))
      (.single (.assign (.var (hsum hs.enter)) (fun o ho => by cases ho) hcall))
  | countedLoop callee =>
    have hcounter := hc.ground.has_counter hi.roles
    have hother : ∀ x ∈ i.locals, "i" ≠ x.2.1 := by
      intro x hx
      simp only [Idiom.locals, List.mem_cons] at hx
      rcases hx with rfl | rfl | hx
      · decide
      · decide
      · rw [i.shared_names x hx]; decide
    -- the header is a block of its own, so the name is free there whatever loops there have been
    obtain ⟨hdeclared, hheader⟩ := declared_typed hroles hs.enter hcounter (by decide) nofun hother 1
    have hlocals := hheader.sub fun x hx => List.mem_cons_of_mem _ hx
    have hshown := hheader.shows List.mem_cons_self hcounter
    have hinside := hheader.enter.shows List.mem_cons_self hcounter
    have hcall := call_typed hc hi (hshared hlocals.enter) hm
      (binary_typed hroles cOperators.minus (by simp) (.var (harg hlocals.enter)) (.var hinside))
    exact .count hdeclared (binary_typed hroles _ (by simp) (.var (hsum hlocals)) (.var hshown))
      (update_typed hroles hshown .int) (.single (update_typed hroles (hsum hlocals.enter) hcall))
  | conditionedLoop callee =>
    have hguard : s.Shows c.registry i.guard "int" := by
      rcases hi.guard with he | he
      · rw [he]; exact harg hs
      · rw [he]; exact hsum hs
    have hcall := call_typed hc hi (hshared hs.enter) hm (hless cOperators.minus (by simp) 1)
    exact .loop (isPositive_typed hroles hguard) (.single (update_typed hroles (hsum hs.enter) hcall))
  | read place => exact update_typed hroles (hsum hs) (hi.value place hc (hshared hs))
  | write place callee =>
    have hcall := call_typed hc hi (hshared hs.enter) hm.2 (hless cOperators.div (by simp) 2)
    exact .whenever (isPositive_typed hroles (harg hs)) (.single (hi.store place hc (hshared hs.enter) hcall))

/-- The total can be returned. -/
theorem sumReturned_typed {vs : List (VarId × String × String)} (hs : s.Holds c.registry vs)
    (hmem : (sumVar, "sum", "int") ∈ vs) (hreturns : c.returns = "int") : Stmt.Typed c s (.result (.var sumVar)) s := by
  refine .result (by rw [hreturns]; decide) ?_
  rw [hreturns]
  exact .var (hs.shows hmem (hc.ground.has_sum hi.roles))

/-- The body of a generated function is right. -/
theorem Idiom.body_typed (hreturns : c.returns = "int") (number : Nat) {moves : List Move}
    (hm : ∀ m ∈ moves, m.Fits size i.places) : ∃ t, Block.Typed c (.ofParams i.params) (i.body number moves) t := by
  obtain ⟨hentry, hfree, -⟩ := hi.entry hc.ground
  have harg := hc.ground.has_arg hi.roles
  have htrace : Stmt.Typed c (.ofParams i.params) (.raw (traceLine number "arg")) (.ofParams i.params) := by
    have hplain : IsPlain (c.registry.variableName argVar) := by
      rw [harg.variableName]
      exact isPlain_of_all rfl
    rw [← harg.variableName]
    exact .traced (hentry.shows List.mem_cons_self harg) hplain
  obtain ⟨hdeclared, hlocals⟩ := declared_typed (hc.saysRoles hi) hentry (hc.ground.has_sum hi.roles) (by decide) hfree
    (fun x hx => by
      rcases List.mem_cons.mp hx with rfl | hx
      · decide
      · rw [i.shared_names x hx]; decide) 0
  -- moves declare nothing outside of their own blocks, so all of them stand in one scope
  have hmoves := Block.Typed.ofForall (b := moves.map (Move.stmt i)) fun x hx => by
    obtain ⟨m, hmem, rfl⟩ := List.mem_map.mp hx
    exact Move.typed hc hi hlocals (hm m hmem)
  have hfront := Block.Typed.cons htrace (.cons .flushed (.single hdeclared))
  exact ⟨_, (hfront.append hmoves).append (.single (sumReturned_typed hc hi hlocals List.mem_cons_self hreturns))⟩

/-- The body of `main` is right. -/
theorem Idiom.mainBody_typed (hreturns : c.returns = "int") {values : List Nat} (hvalues : values ≠ [])
    {starts : List (Nat × Nat)} (hst : ∀ x ∈ starts, x.2 < size) :
    ∃ t, Block.Typed c (.ofParams []) (i.mainBody values starts) t := by
  have hsum := hc.ground.has_sum hi.roles
  obtain ⟨hdeclared, hknown⟩ := declared_typed (hc.saysRoles hi) (Scope.Holds.ofParams_nil _) hsum (by decide) nofun nofun 0
  have hfree : ((Scope.ofParams []).declare (.variable sumVar)).Free c.registry "arr" :=
    (Scope.free_ofParams_nil _ _).declareVariable hsum (by decide)
  obtain ⟨t, hprelude, hlocals⟩ := hi.prelude hc hvalues hknown hfree
  have hstarts := Block.Typed.ofForall (b := starts.map fun x => i.start x.1 x.2) fun x hx => by
    obtain ⟨st, hmem, rfl⟩ := List.mem_map.mp hx
    have hnumber : Expr.HasType c t (.int st.1) "int" := .int
    have hcall := call_typed hc hi (hlocals.sub fun y hy => List.mem_cons_of_mem _ hy) (hst st hmem) hnumber
    exact update_typed (hc.saysRoles hi) (hlocals.shows List.mem_cons_self hsum) hcall
  have hfront := Block.Typed.cons hdeclared hprelude
  exact ⟨t, (hfront.append hstarts).append (.single (sumReturned_typed hc hi hlocals List.mem_cons_self hreturns))⟩

end Moves

/-! ## Two idioms

The fields of `Idiom.Sound` are shown one after the other.  Programs that share an array declare it in front of the calls of
`main` and know it as a parameter everywhere else; programs with files have nothing to share, but two functions to call. -/

namespace ArrayBacked

/-- Programs that share an array are right. -/
theorem idiom_sound (size : Nat) : (arrayIdiom size).Sound size where
  roles := idiom_namesRoles size
  args := by
    intro c s first hc hs hf
    have harg := hc.ground.has_arg (idiom_namesRoles size)
    have harr := has_arr hc.ground
    have htypes : (arrayIdiom size).params.map c.registry.typeName = ["int", "int*"] := by
      simp only [arrayIdiom, List.map_cons, List.map_nil, harg.typeName, harr.typeName]
    rw [htypes]
    exact .cons hf (.cons (.var (hs.shows List.mem_cons_self harr)) .nil)
  guard := Or.inl rfl
  value := by
    intro c s place hc hs
    have harr := has_arr hc.ground
    exact .element (hs.shows List.mem_cons_self harr) .int
  store := by
    intro c s call place hc hs hcall
    have harr := has_arr hc.ground
    exact added_typed (hc.ground.saysRoles (idiom_namesRoles size)) (.element arrVar (.int place))
      (.element (hs.shows List.mem_cons_self harr) .int) hcall
  prelude := by
    intro c s values hc hvalues hs hfree
    have harr := has_arr hc.ground
    refine ⟨s.declare (.variable arrVar), .single (.array ?_ harr.typeName hvalues ?_), ?_⟩
    · exact (hc.ground.saysRoles (idiom_namesRoles size)).int
    · rw [harr.variableName]
      exact hfree
    · -- the array was declared last, but the order in which variables are known does not matter
      have hboth := hs.declareVariable harr (by decide) (by simp)
      exact hboth.sub (by simp [Idiom.shared, arrayIdiom])
  entry := by
    intro r hr
    have harg := hr.has_arg (idiom_namesRoles size)
    have harr := has_arr hr
    have hfree : ((Scope.ofParams []).declare (.variable arrVar)).Free r "sum" :=
      (Scope.free_ofParams_nil _ _).declareVariable harr (by decide)
    refine ⟨?_, hfree.declareVariable harg (by decide), ?_⟩
    · have hfirst := (Scope.Holds.ofParams_nil r).declareVariable harr (by decide) (List.forall_mem_nil _)
      exact hfirst.declareVariable harg (by decide) (by simp)
    · simp only [arrayIdiom, List.map_cons, List.map_nil, harg.variableName, harr.variableName]
      decide

end ArrayBacked

namespace FileBacked

/-- The helper that reads. -/
def reader (size : Nat) : Helper :=
  { id := ⟨size⟩, returnType := "int", name := readerName, params := [pathVar], body := readerLines }

/-- The helper that writes. -/
def writer (size : Nat) : Helper :=
  { id := ⟨size + 1⟩, returnType := "void", name := writerName, params := [pathVar, valueVar], body := writerLines }

theorem helpers_eq (size : Nat) : (fileIdiom size).helpers = [reader size, writer size] := rfl

/-- Programs that read and write files are right. -/
theorem idiom_sound (size : Nat) : (fileIdiom size).Sound size where
  roles := idiom_namesRoles size
  args := by
    intro c s first hc hs hf
    have harg := hc.ground.has_arg (idiom_namesRoles size)
    have htypes : (fileIdiom size).params.map c.registry.typeName = ["int"] := by
      simp only [fileIdiom, List.map_cons, List.map_nil, harg.typeName]
    rw [htypes]
    exact .cons hf .nil
  guard := Or.inr rfl
  value := by
    intro c s place hc hs
    have hmem : reader size ∈ (fileIdiom size).helpers := List.mem_cons_self
    have hpath := has_path hc.ground
    have hplain : IsPlain (toString place) := by
      have happend := isPlain_append (show IsPlain "" from isPlain_of_all rfl) place
      rwa [String.empty_append] at happend
    refine .call (hc.helpers _ hmem) (hc.ground.helpers _ hmem)
      (hs.resolve_eq_none (show readerName ∉ localNames by decide)) ?_
    rw [reader, List.map_cons, List.map_nil, hpath.typeName]
    exact .cons (.quoted hplain) .nil
  store := by
    intro c s call place hc hs hcall
    have hmem : writer size ∈ (fileIdiom size).helpers := List.mem_cons_of_mem _ List.mem_cons_self
    have hpath := has_path hc.ground
    have hvalue := has_value hc.ground
    have hplain : IsPlain "out_" := isPlain_of_all rfl
    refine .effect (.call (hc.helpers _ hmem) (hc.ground.helpers _ hmem)
      (hs.resolve_eq_none (show writerName ∉ localNames by decide)) ?_)
    rw [writer, List.map_cons, List.map_cons, List.map_nil, hpath.typeName, hvalue.typeName]
    exact .cons (.quoted (isPlain_append hplain place)) (.cons hcall .nil)
  prelude := by
    intro c s values hc hvalues hs hfree
    exact ⟨s, .nil, hs⟩
  entry := by
    intro r hr
    have harg := hr.has_arg (idiom_namesRoles size)
    refine ⟨(Scope.Holds.ofParams_nil r).declareVariable harg (by decide) (List.forall_mem_nil _),
      (Scope.free_ofParams_nil _ _).declareVariable harg (by decide), ?_⟩
    simp only [fileIdiom, List.map_cons, List.map_nil, harg.variableName]
    decide

/-! ### Helpers -/

variable {vs : List (VarId × String × String)}

/-- Behind the line that opens a file the file is known. -/
theorem opened_typed (hs : s.Holds c.registry vs) (hmem : (pathVar, "path", "const char*") ∈ vs)
    (hpath : c.registry.Has pathVar "path" "const char*") {mode : String} (hplain : IsPlain mode)
    (hfree : s.Free c.registry "f") (hne : ∀ x ∈ vs, "f" ≠ x.2.1) :
    Stmt.Typed c s (opened mode) (s.declare .file) ∧ (s.declare .file).Holds c.registry vs ∧
      (s.declare .file).resolve c.registry "f" = some .file := by
  have hline : opened mode
      = .raw ("FILE* f = fopen(" ++ c.registry.variableName pathVar ++ ", \x22" ++ mode ++ "\x22);") := by
    rw [hpath.variableName]
    rfl
  refine ⟨?_, hs.declare (show "f" ∈ localNames by decide) hne, Scope.resolve_declare_self s .file⟩
  rw [hline]
  exact .opened (hs.shows hmem hpath) hplain hfree

/-- The function that reads is right: it declares three names that are no parameter, and it returns a number on both ways
out. -/
theorem reader_sound {r : Registry} (hr : Ground r (fileIdiom size) size) : (reader size).Sound r := by
  have hpath := has_path hr
  have hvalue := has_value hr
  have htotal := has_total hr
  refine ⟨List.nodup_cons.mpr ⟨nofun, List.nodup_nil⟩, fun callable => ?_,
    fun _ => ⟨readerLines.dropLast, .var totalVar, rfl⟩⟩
  let c : Context := { registry := r, callable, returns := "int" }
  have hroles : SaysRoles c.registry := hr.saysRoles (idiom_namesRoles size)
  have hparams : (Scope.ofParams [pathVar]).Holds r [(pathVar, "path", "const char*")] :=
    (Scope.Holds.ofParams_nil r).declareVariable hpath (by decide) nofun
  have hnew : ∀ {name}, "path" ≠ name → (Scope.ofParams [pathVar]).Free r name := fun hne =>
    (Scope.free_ofParams_nil r _).declareVariable hpath hne
  have hnew' : ∀ {name}, "path" ≠ name → "f" ≠ name → ((Scope.ofParams [pathVar]).declare .file).Free r name :=
    fun hne hne' => (hnew hne).declare hne'
  have hplain : IsPlain "r" := isPlain_of_all rfl
  obtain ⟨hopened, hbehind, hfile⟩ := opened_typed (c := c) hparams List.mem_cons_self hpath hplain
    (hnew (by decide)) (by decide)
  obtain ⟨hfirst, hknown⟩ := declared_typed (c := c) hroles hbehind htotal (by decide) (hnew' (by decide) (by decide))
    (by decide) 0
  obtain ⟨hsecond, hall⟩ := declared_typed (c := c) hroles hknown hvalue (by decide)
    ((hnew' (by decide) (by decide)).declareVariable htotal (by decide)) (by decide) 0
  -- the declarations behind it have other names, so `f` still stands for the file
  have hfile' : ((((Scope.ofParams [pathVar]).declare .file).declare (.variable totalVar)).declare
      (.variable valueVar)).resolve r "f" = some .file := by
    rw [Scope.resolve_declare_ne (by rw [Binding.name, hvalue.variableName]; decide),
      Scope.resolve_declare_ne (by rw [Binding.name, htotal.variableName]; decide)]
    exact hfile
  have hscanned := Expr.HasType.scanned (c := c) hfile' (hall.shows List.mem_cons_self hvalue)
  rw [hvalue.variableName] at hscanned
  have hadded := update_typed (c := c) hroles (hall.enter.shows (List.mem_cons_of_mem _ List.mem_cons_self) htotal)
    (.var (hall.enter.shows List.mem_cons_self hvalue))
  have hreturned := hall.shows (List.mem_cons_of_mem _ List.mem_cons_self) htotal
  have hresult : c.returns ≠ "void" := show "int" ≠ "void" by decide
  exact ⟨_, .cons hopened (.cons (.whenever (.openFailed hfile) (.single (.result hresult .int)))
    (.cons hfirst (.cons hsecond (.cons (.loop hscanned (.single hadded)) (.cons (.closed hfile')
      (.single (.result hresult (.var hreturned))))))))⟩

/-- So is the one that writes, which returns nothing. -/
theorem writer_sound {r : Registry} (hr : Ground r (fileIdiom size) size) : (writer size).Sound r := by
  have hpath := has_path hr
  have hvalue := has_value hr
  refine ⟨?_, fun callable => ?_, fun hvoid => absurd rfl hvoid⟩
  · simp only [writer, List.map_cons, List.map_nil, hpath.variableName, hvalue.variableName]
    decide
  · let c : Context := { registry := r, callable, returns := "void" }
    have hparams : (Scope.ofParams [pathVar, valueVar]).Holds r
        [(pathVar, "path", "const char*"), (valueVar, "value", "int")] :=
      ((Scope.Holds.ofParams_nil r).declareVariable hvalue (by decide) nofun).declareVariable hpath (by decide) (by decide)
    have hfree : (Scope.ofParams [pathVar, valueVar]).Free r "f" :=
      ((Scope.free_ofParams_nil r "f").declareVariable hvalue (by decide)).declareVariable hpath (by decide)
    have hplain : IsPlain "a" := isPlain_of_all rfl
    obtain ⟨hopened, hbehind, hfile⟩ := opened_typed (c := c) hparams List.mem_cons_self hpath hplain hfree (by decide)
    have hprinted := Stmt.Typed.printed (c := c) hfile
      (hbehind.shows (List.mem_cons_of_mem _ List.mem_cons_self) hvalue)
    rw [hvalue.variableName] at hprinted
    exact ⟨_, .cons hopened (.cons (.whenever (.openFailed hfile) (.single (.left rfl)))
      (.cons hprinted (.single (.closed hfile))))⟩

end FileBacked

end SeedCorpus
