/-
  What generated programs can look like.

  A drawn statement is one of five shapes with numbers in it (`Move`): which function is called, which place is read or
  written.  What the shapes look like depends on the way of making programs only in a few points, and these make up an
  `Idiom`: the arguments of a call, what stands for a read value, and so on.  A body is a list of moves between a fixed
  beginning and end (`Idiom.body`), and `main` is a list of starts (`Idiom.mainBody`).

  There are two idioms, `arrayIdiom` and `fileIdiom`.  That the strategies keep to them is shown elsewhere; what is proved
  about the programs needs no more than the idioms.

  So there are three layers between a run and a theorem about its program:

  1. a `Sketch` is what was drawn, nothing but numbers;
  2. an idiom turns a sketch into syntax, and `Assembly.MadeFrom` says that an assembly is what became of a sketch;
  3. a `Ground` is what the registry has to know for that syntax to mean anything: types, operations, variables, functions.

  Whoever wants to know what a program looks like goes from 1 to 2, and whoever renders or types it needs 3.  A theorem that
  does not care for the sketch takes `Assembly.MadeIn`, which is the same with the sketch forgotten (`Assembly.madeIn_iff`).
-/
import SeedCorpus.Proofs.Acts
import SeedCorpus.Proofs.Synthesis.Growth
import SeedCorpus.Synthesis.Program

namespace SeedCorpus

/-! ## What all programs share

Variables, operations and functions are known by ids, and ids are handed out in order.  Both ways of making programs begin
with the same declarations, so that the ids that they have in common are numbers which can be written down. -/

/-- The type `int` in every program. -/
def intType : ValueType := ⟨⟨0⟩⟩

/-- The operations in every program. -/
def cOperators : Operators := { plus := ⟨⟨4⟩⟩, minus := ⟨⟨5⟩⟩, div := ⟨⟨7⟩⟩, gt := ⟨⟨8⟩⟩ }

/-- The argument that limits the depth of calls. -/
def argVar : VarId := ⟨0⟩

/-- The running total. -/
def sumVar : VarId := ⟨1⟩

/-- The counter of counting loops. -/
def counterVar : VarId := ⟨2⟩

/-- The generated functions of a program. -/
def testIds (size : Nat) : List FuncId := (List.range size).map FuncId.mk

/-- The condition that a variable is positive. -/
def isPositive (v : VarId) : Expr := .binary (.var v) cOperators.gt (.int 0)

/-! ## Idioms

What is common to all statements of one shape stands in `Move.stmt` and nowhere else.  The fields of an idiom are what is
left: the two ways of making programs differ in these points and in no others, so that a property of all programs is proved
once, from what it needs of the fields. -/

/-- A function of fixed content. -/
structure Helper where
  /-- Its id. -/
  id : FuncId
  /-- The spelling of its type. -/
  returnType : String
  /-- Its name. -/
  name : String
  /-- Its parameters. -/
  params : List VarId
  /-- Its body. -/
  body : Block

/-- The points in which programs differ by the way in which they are made. -/
structure Idiom where
  /-- The variables with their names and the spellings of their types. -/
  vars : List (VarId × String × String)
  /-- The shared array, if there is one. -/
  arr : Option VarId
  /-- The parameters of the generated functions. -/
  params : List VarId
  /-- How many places there are to read and write. -/
  places : Nat
  /-- The arguments of a call, from the first one. -/
  args : Expr → List Expr
  /-- The variable that conditioned loops look at. -/
  guard : VarId
  /-- The value read from a place. -/
  value : Nat → Expr
  /-- The statement that stores the value of a call in a place. -/
  store : Nat → Expr → Stmt
  /-- The statements of `main` in front of the calls, from random values. -/
  prelude : List Nat → Block
  /-- The functions of fixed content. -/
  helpers : List Helper

namespace Idiom

/-- The variables in their roles. -/
def roles (i : Idiom) : Roles := { arg := argVar, sum := sumVar, counter := counterVar, arr := i.arr }

/-- The frame in which the functions of a program are drawn. -/
def frame (i : Idiom) (size : Nat) : Frame := { roles := i.roles, tests := testIds size }

/-- The variables of an idiom are, among others, those that all programs share. -/
structure NamesRoles (i : Idiom) : Prop where
  /-- The argument. -/
  arg : (argVar, "arg", "int") ∈ i.vars
  /-- The total. -/
  sum : (sumVar, "sum", "int") ∈ i.vars
  /-- The counter. -/
  counter : (counterVar, "i", "int") ∈ i.vars

/-- The call of a generated function. -/
def call (i : Idiom) (callee : Nat) (first : Expr) : Expr := .call ⟨callee⟩ (i.args first)

end Idiom

/-! ## Moves

A move forgets everything about a statement but the numbers that were drawn for it.  That is why the moves of a function fit
a size and a number of places (`Move.Fits`) whichever idiom they are meant for. -/

/-- A drawn statement, with the numbers that were drawn for it. -/
inductive Move where
  /-- A call if the argument is positive. -/
  | guardedCall (callee : Nat)
  /-- A loop that counts up to the total and calls in every round. -/
  | countedLoop (callee : Nat)
  /-- A loop under a condition that calls in every round. -/
  | conditionedLoop (callee : Nat)
  /-- A value read from a place. -/
  | read (place : Nat)
  /-- The value of a call stored in a place. -/
  | write (place callee : Nat)
deriving DecidableEq, Repr

/-- The numbers of a move are below the number of functions and the number of places. -/
def Move.Fits (size places : Nat) : Move → Prop
  | .guardedCall callee | .countedLoop callee | .conditionedLoop callee => callee < size
  | .read place => place < places
  | .write place callee => place < places ∧ callee < size

/-- The places that a move reads from. -/
def Move.reads : Move → List Nat
  | .read place => [place]
  | _ => []

/-- Only reading moves have a place, and it is the one that they name. -/
theorem Move.mem_reads {m : Move} {place : Nat} : place ∈ m.reads ↔ m = .read place := by
  cases m <;> simp [reads, eq_comm]

/-- The statement of a move. -/
def Move.stmt (i : Idiom) : Move → Stmt
  | .guardedCall callee =>
    .whenever (isPositive argVar) [.set sumVar (i.call callee (.binary (.var argVar) cOperators.minus (.int 1)))]
  | .countedLoop callee =>
    .count (.scalar intType counterVar (.int 1)) (.binary (.var sumVar) cOperators.gt (.var counterVar))
      (.update counterVar cOperators.plus (.int 1))
      [.update sumVar cOperators.plus (i.call callee (.binary (.var argVar) cOperators.minus (.var counterVar)))]
  | .conditionedLoop callee =>
    .loop (isPositive i.guard)
      [.update sumVar cOperators.plus (i.call callee (.binary (.var argVar) cOperators.minus (.int 1)))]
  | .read place => .update sumVar cOperators.plus (i.value place)
  | .write place callee =>
    .whenever (isPositive argVar) [i.store place (i.call callee (.binary (.var argVar) cOperators.div (.int 2)))]

namespace Idiom

/-- The body of the function of a number. -/
def body (i : Idiom) (number : Nat) (moves : List Move) : Block :=
  [.raw (traceLine number "arg"), .raw "fflush(stdout);", .scalar intType sumVar (.int 0)]
    ++ moves.map (Move.stmt i) ++ [.result (.var sumVar)]

/-- A start: a call of `main` with a number. -/
def start (i : Idiom) (number callee : Nat) : Stmt := .update sumVar cOperators.plus (i.call callee (.int number))

/-- The body of `main`. -/
def mainBody (i : Idiom) (values : List Nat) (starts : List (Nat × Nat)) : Block :=
  .scalar intType sumVar (.int 0) :: i.prelude values ++ starts.map (fun s => i.start s.1 s.2)
    ++ [.result (.var sumVar)]

end Idiom

/-! ## Sketches

A sketch holds all that chance has decided.  From a sketch and an idiom the program follows, so that two runs with one sketch
make one program, and what is known of the numbers is known of the text. -/

/-- What was drawn for a program. -/
structure Sketch where
  /-- The moves of the function of a number. -/
  moves : Nat → List Move
  /-- The values in front of the calls of `main`. -/
  values : List Nat
  /-- The calls of `main`: the number that is handed over, and the function. -/
  starts : List (Nat × Nat)

namespace Sketch

/-- The numbers of a sketch are in their ranges, and there are as many of everything as there should be. -/
structure Fits (s : Sketch) (size places budget : Nat) : Prop where
  /-- The moves. -/
  moves : ∀ k < size, (s.moves k).length = budget ∧ ∀ m ∈ s.moves k, m.Fits size places
  /-- The values. -/
  values : s.values.length = size * size
  /-- The calls of `main`. -/
  starts : s.starts.length = size ∧ ∀ st ∈ s.starts, st.2 < size

/-- The contents and the numbers that are handed over are at most the square of the size. -/
structure Bounded (s : Sketch) (size : Nat) : Prop where
  /-- The values. -/
  values : ∀ v ∈ s.values, v ≤ size * size
  /-- The numbers that `main` hands over. -/
  starts : ∀ st ∈ s.starts, st.1 ≤ size * size

/-- The places that the functions of a program read from, in the order in which they were drawn. -/
def reads (s : Sketch) (size : Nat) : List Nat := (List.range size).flatMap fun k => (s.moves k).flatMap Move.reads

/-- A program reads a place exactly if one of its functions has the move that reads it. -/
theorem mem_reads {s : Sketch} {size place : Nat} : place ∈ s.reads size ↔ ∃ k < size, .read place ∈ s.moves k := by
  simp only [reads, List.mem_flatMap, List.mem_range, Move.mem_reads]
  constructor
  · -- the move is in the list of a function, and by `Move.mem_reads` it is the one that reads the place
    rintro ⟨k, hk, m, hm, rfl⟩
    exact ⟨k, hk, hm⟩
  · rintro ⟨k, hk, hm⟩
    exact ⟨k, hk, _, hm, rfl⟩

end Sketch

/-! ## Two idioms

Each has one field after the other as the strategy makes it.  They share the first three variables, and so the roles of these
(`Idiom.NamesRoles`); a shared array makes for a further argument of every call, while files need two functions of fixed
content, which are declared behind the generated ones and therefore have the ids `size` and `size + 1`. -/

namespace ArrayBacked

/-- The shared array. -/
def arrVar : VarId := ⟨3⟩

end ArrayBacked

open SeedCorpus.ArrayBacked in
/-- Programs whose functions share an array. -/
def arrayIdiom (size : Nat) : Idiom where
  vars := [(argVar, "arg", "int"), (sumVar, "sum", "int"), (counterVar, "i", "int"), (arrVar, "arr", "int*")]
  arr := some arrVar
  params := [argVar, arrVar]
  places := size * size
  args first := [first, .var arrVar]
  guard := argVar
  value place := .element arrVar (.int place)
  store place call := .assign (.element arrVar (.int place)) (some cOperators.plus) call
  prelude values := [.declare intType (.array arrVar) (.literal (initializer values))]
  helpers := []

namespace FileBacked

/-- The path of a file. -/
def pathVar : VarId := ⟨3⟩

/-- A value read from a file or written to one. -/
def valueVar : VarId := ⟨4⟩

/-- The total of the values of a file. -/
def totalVar : VarId := ⟨5⟩

/-- The statement that opens the file that the path names. -/
def opened (mode : String) : Stmt := .raw ("FILE* f = fopen(path, \x22" ++ mode ++ "\x22);")

/-- The body of the helper that reads. -/
def readerLines : Block :=
  [ opened "r",
    .whenever openFailed [.result (.int 0)],
    .scalar intType totalVar (.int 0),
    .scalar intType valueVar (.int 0),
    .loop (.literal "fscanf(f, \x22%d\x22, &value) == 1") [.update totalVar cOperators.plus (.var valueVar)],
    closeFile,
    .result (.var totalVar) ]

/-- The body of the helper that writes. -/
def writerLines : Block :=
  [opened "a", .whenever openFailed [.raw "return;"], .raw "fprintf(f, \x22%d\\n\x22, value);", closeFile]

end FileBacked

open SeedCorpus.FileBacked in
/-- Programs that read and write files. -/
def fileIdiom (size : Nat) : Idiom where
  vars := [(argVar, "arg", "int"), (sumVar, "sum", "int"), (counterVar, "i", "int"),
    (pathVar, "path", "const char*"), (valueVar, "value", "int"), (totalVar, "total", "int")]
  arr := none
  params := [argVar]
  places := size
  args first := [first]
  guard := sumVar
  value place := .call ⟨size⟩ [quoted (toString place)]
  store place call := .effect (.call ⟨size + 1⟩ [quoted ("out_" ++ toString place), call])
  prelude _ := []
  helpers :=
    [{ id := ⟨size⟩, returnType := "int", name := readerName, params := [pathVar], body := readerLines },
      { id := ⟨size + 1⟩, returnType := "void", name := writerName, params := [pathVar, valueVar], body := writerLines }]

/-! ## Programs made in an idiom

`MadeIn` and `MadeFrom` say the same of everything but the bodies: there the one has some moves that fit, and the other has
the moves of a sketch.  Both are stated in full, as each is what others unfold. -/

/-- A registry knows what the functions of a program refer to. -/
structure Ground (r : Registry) (i : Idiom) (size : Nat) : Prop where
  /-- The types, operations and texts are those of generated programs. -/
  base : Registry.withCTypes.Grows r
  /-- The variables. -/
  vars : ∀ x ∈ i.vars, r.Has x.1 x.2.1 x.2.2
  /-- The generated functions. -/
  tests : ∀ k < size, r.Announces ⟨k⟩ "int" (testName k) i.params
  /-- The functions of fixed content. -/
  helpers : ∀ h ∈ i.helpers, r.Announces h.id h.returnType h.name h.params

/-- A program is made in an idiom: all its bodies are as the idiom says, with moves and starts that fit. -/
structure Assembly.MadeIn (a : Assembly) (i : Idiom) (size budget : Nat) : Prop where
  /-- All that is referred to is known. -/
  ground : Ground a.registry i size
  /-- The generated functions. -/
  tests : a.tests = testIds size
  /-- The functions of fixed content. -/
  helpers : a.helpers = i.helpers.map (·.id)
  /-- The bodies of the generated functions. -/
  bodies : ∀ k < size, ∃ moves : List Move, moves.length = budget ∧ (∀ m ∈ moves, m.Fits size i.places) ∧
    a.registry.bodyOf ⟨k⟩ = some (i.body k moves)
  /-- The bodies of fixed content. -/
  helperBodies : ∀ h ∈ i.helpers, a.registry.bodyOf h.id = some h.body
  /-- The function that the program starts with. -/
  main : a.registry.Announces a.main "int" "main" []
  /-- Its body. -/
  mainBody : ∃ values starts, values.length = size * size ∧ starts.length = size ∧ (∀ s ∈ starts, s.2 < size) ∧
    a.registry.bodyOf a.main = some (i.mainBody values starts)

/-- A program is made in an idiom from what was drawn for it. -/
structure Assembly.MadeFrom (a : Assembly) (i : Idiom) (size budget : Nat) (s : Sketch) : Prop where
  /-- All that is referred to is known. -/
  ground : Ground a.registry i size
  /-- What was drawn is in its ranges. -/
  fits : s.Fits size i.places budget
  /-- The generated functions. -/
  tests : a.tests = testIds size
  /-- The functions of fixed content. -/
  helpers : a.helpers = i.helpers.map (·.id)
  /-- The bodies of the generated functions. -/
  bodies : ∀ k < size, a.registry.bodyOf ⟨k⟩ = some (i.body k (s.moves k))
  /-- The bodies of fixed content. -/
  helperBodies : ∀ h ∈ i.helpers, a.registry.bodyOf h.id = some h.body
  /-- The function that the program starts with. -/
  main : a.registry.Announces a.main "int" "main" []
  /-- Its body. -/
  mainBody : a.registry.bodyOf a.main = some (i.mainBody s.values s.starts)

/-- A program is made in an idiom just when it is made from some sketch. -/
theorem Assembly.madeIn_iff {a : Assembly} {i : Idiom} {size budget : Nat} :
    a.MadeIn i size budget ↔ ∃ s, a.MadeFrom i size budget s := by
  constructor
  · intro h
    -- the moves of all functions are chosen at once
    have hbodies : ∀ k, ∃ moves : List Move, k < size → (moves.length = budget ∧ ∀ m ∈ moves, m.Fits size i.places) ∧
        a.registry.bodyOf ⟨k⟩ = some (i.body k moves) := fun k => by
      by_cases hk : k < size
      · obtain ⟨moves, hlength, hfits, heq⟩ := h.bodies k hk
        exact ⟨moves, fun _ => ⟨⟨hlength, hfits⟩, heq⟩⟩
      · exact ⟨[], fun hk' => absurd hk' hk⟩
    obtain ⟨moves, hmoves⟩ := Classical.axiomOfChoice hbodies
    -- what `main` does is one choice, not one for every function
    obtain ⟨values, starts, hvalues, hstarts, hfit, hmain⟩ := h.mainBody
    exact ⟨⟨moves, values, starts⟩, h.ground, ⟨fun k hk => (hmoves k hk).1, hvalues, hstarts, hfit⟩, h.tests, h.helpers,
      fun k hk => (hmoves k hk).2, h.helperBodies, h.main, hmain⟩
  · rintro ⟨s, h⟩
    exact ⟨h.ground, h.tests, h.helpers,
      fun k hk => ⟨s.moves k, (h.fits.moves k hk).1, (h.fits.moves k hk).2, h.bodies k hk⟩, h.helperBodies, h.main,
      s.values, s.starts, h.fits.values, h.fits.starts.1, h.fits.starts.2, h.mainBody⟩

/-- Declaring more does not take the ground away: names, types and functions that are known stay known. -/
theorem Ground.mono {r r' : Registry} {i : Idiom} {size : Nat} (h : Ground r i size) (hg : r.Grows r') :
    Ground r' i size where
  base := h.base.trans hg
  vars x hx := (h.vars x hx).mono hg
  tests k hk := (h.tests k hk).mono hg
  helpers x hx := (h.helpers x hx).mono hg

/-- The type of all numbers is registered under its usual key. -/
theorem Ground.intType_ok {r : Registry} {i : Idiom} {size : Nat} (h : Ground r i size) : r.type "int" = .ok intType :=
  (h.base.type_eq "int").trans rfl

/-- The four operations that statements are made with are registered under their keys. -/
theorem Ground.operation_ok {r : Registry} {i : Idiom} {size : Nat} (h : Ground r i size) :
    r.operation "sum" = .ok cOperators.plus ∧ r.operation "dif" = .ok cOperators.minus ∧
      r.operation "div" = .ok cOperators.div ∧ r.operation "gt" = .ok cOperators.gt :=
  ⟨(h.base.operation_eq "sum").trans rfl, (h.base.operation_eq "dif").trans rfl,
    (h.base.operation_eq "div").trans rfl, (h.base.operation_eq "gt").trans rfl⟩

/-- So a strategy finds all its operators, and finds the ones that programs have. -/
theorem Ground.operators_ok {r : Registry} {i : Idiom} {size : Nat} (h : Ground r i size) :
    Operators.find r = .ok cOperators := by
  obtain ⟨hplus, hminus, hdiv, hgt⟩ := h.operation_ok
  rw [Operators.find, hplus, hminus, hdiv, hgt]
  rfl

/-- The condition that a variable is positive is built without a failure. -/
theorem Ground.positive_ok {r : Registry} {i : Idiom} {size : Nat} (h : Ground r i size) (v : VarId) :
    positive r v = .ok (isPositive v) := by
  rw [positive, h.operation_ok.2.2.2]
  rfl

section Variables

variable {r : Registry} {i : Idiom} {size : Nat}

/-- The argument has its name and its type in every program. -/
theorem Ground.has_arg (h : Ground r i size) (hi : i.NamesRoles) : r.Has argVar "arg" "int" := h.vars _ hi.arg

theorem Ground.has_sum (h : Ground r i size) (hi : i.NamesRoles) : r.Has sumVar "sum" "int" := h.vars _ hi.sum

theorem Ground.has_counter (h : Ground r i size) (hi : i.NamesRoles) : r.Has counterVar "i" "int" := h.vars _ hi.counter

/-- The shared array has its name and is a pointer to numbers. -/
theorem ArrayBacked.has_arr (h : Ground r (arrayIdiom size) size) : r.Has arrVar "arr" "int*" :=
  h.vars (arrVar, "arr", "int*") (by simp [arrayIdiom])

theorem FileBacked.has_path (h : Ground r (fileIdiom size) size) : r.Has pathVar "path" "const char*" :=
  h.vars (pathVar, "path", "const char*") (by simp [fileIdiom])

/-- The value that a helper reads or writes is a number. -/
theorem FileBacked.has_value (h : Ground r (fileIdiom size) size) : r.Has valueVar "value" "int" :=
  h.vars (valueVar, "value", "int") (by simp [fileIdiom])

theorem FileBacked.has_total (h : Ground r (fileIdiom size) size) : r.Has totalVar "total" "int" :=
  h.vars (totalVar, "total", "int") (by simp [fileIdiom])

end Variables

end SeedCorpus
