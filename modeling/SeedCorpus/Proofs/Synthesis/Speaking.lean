/-
  The two strategies speak the two idioms.

  Before it draws, a run declares the roles on a registry that is always the same, so what comes of that can be computed;
  from there on the registry grows by the generated functions, one for each number (`newTests_gives`), and by the
  helpers.  A strategy that works on files then remembers its helpers, and that is all it has to know for its answers
  (`FileBacked.Knows`).  What it files on the way is told by its steps (`FileBacked.Files`): a number that is read is filed
  already, or it comes to be filed, with fresh contents.

  For each of the two there are the same four things to show, and this is all that a third strategy would have to bring:

  1. what is declared makes up the ground of the idiom (`declares`);
  2. the answers are those of the idiom, on any registry that is such a ground (`speaks`);
  3. three facts about the idiom itself (`idiom_fitting`, `idiom_namesRoles`, `idiom_apart`), by looking at its fields;
  4. the whole run then follows from what holds of every strategy that speaks (`assembled`).
-/
import SeedCorpus.Proofs.Synthesis.Drawn

namespace SeedCorpus

open SeedCorpus.Random (Source)

variable {σ : Type}

/-! ## Declaring

Each lemma takes one declaration off the front of a sequence.  What follows is told what the new registry is like, not what
it is: that it has grown, which id was handed out, what that id stands for.  Proofs about long sequences of declarations so
stay as long as the sequences, and do not unfold the registry. -/

namespace Declaring

variable {β : Type} {r : Registry} {notes : σ} {post : β → Registry × σ → Prop} {t : ValueType} {type name : String}

/-- A declaration of a variable, in front of other acts. -/
theorem newVariable_bind {next : VarId → Declaring σ β} (hc : r.symbols.Consistent)
    (ht : r.symbols.text? t.spelling = some type)
    (h : ∀ r', r'.symbols.Consistent → r.Grows r' → r'.Has ⟨r.vars.size⟩ name type →
      r'.vars.size = r.vars.size + 1 → r'.functions = r.functions →
      Gives (next ⟨r.vars.size⟩) (r', notes) post) :
    Gives (newVariable t name >>= next) (r, notes) post := by
  obtain ⟨hc', hg, hhas, hsize⟩ := Registry.declareVariable_spec hc ht name
  exact h _ hc' hg hhas hsize rfl

/-- An announcement of a function, in front of other acts. -/
theorem newFunction_bind {params : List VarId} {next : FuncId → Declaring σ β} (hc : r.symbols.Consistent)
    (ht : r.symbols.text? t.spelling = some type)
    (h : ∀ r', r'.symbols.Consistent → r.Grows r' → r'.Announces ⟨r.functions.size⟩ type name params →
      r'.functions.size = r.functions.size + 1 → r'.vars = r.vars →
      (∀ id body, r.bodyOf id = some body → r'.bodyOf id = some body) →
      Gives (next ⟨r.functions.size⟩) (r', notes) post) :
    Gives (newFunction t name params >>= next) (r, notes) post := by
  obtain ⟨hc', hg, hann, hsize, hbodies⟩ := Registry.declareFunction_spec hc ht name params
  exact h _ hc' hg hann hsize rfl hbodies

/-- A body for a function that is announced, in front of other acts. -/
theorem setBody_bind {id : FuncId} {returnType : String} {params : List VarId} {body : Block} {next : Unit → Declaring σ β}
    (hann : r.Announces id returnType name params)
    (h : ∀ r', r'.symbols = r.symbols → r.Grows r' → r'.functions.size = r.functions.size → r'.bodyOf id = some body →
      (∀ other, other ≠ id → r'.bodyOf other = r.bodyOf other) → Gives (next ()) (r', notes) post) :
    Gives (setBody id body >>= next) (r, notes) post :=
  h _ rfl (Registry.setBody_grows r id body) Array.size_modify (hann.bodyOf_setBody body)
    fun _ hne => Registry.bodyOf_setBody_ne hne r body

/-- The registry as it stands, in front of other acts. -/
theorem registry_bind {next : Registry → Declaring σ β} (h : Gives (next r) (r, notes) post) :
    Gives (registry >>= next) (r, notes) post := h

/-- A type that is registered, in front of other acts. -/
theorem type_bind {key : String} {next : ValueType → Declaring σ β} (ht : r.type key = .ok t)
    (h : Gives (next t) (r, notes) post) : Gives (Declaring.type key >>= next) (r, notes) post := by
  refine Gives.bind_eq ?_ h
  show orFail (r.type key) (r, notes) = _
  rw [ht]
  rfl

end Declaring

/-- The generated functions are announced in order, from a registry that has announced none so far. -/
theorem newTests_gives {params : List VarId} {notes : σ} (count : Nat) : ∀ (first : Nat) {r : Registry},
    r.symbols.Consistent → r.symbols.text? intType.spelling = some "int" → r.functions.size = first →
    Gives ((List.range' first count).mapM fun k => Declaring.newFunction (σ := σ) intType (testName k) params) (r, notes)
      fun ids after => ids = (List.range' first count).map FuncId.mk ∧ after.2 = notes ∧ after.1.symbols.Consistent ∧
        r.Grows after.1 ∧ after.1.functions.size = first + count ∧ after.1.vars = r.vars ∧
        ∀ k, first ≤ k → k < first + count → after.1.Announces ⟨k⟩ "int" (testName k) params := by
  induction count with
  -- by induction on how many functions are left, for any number to start at, as the id of each is its number
  | zero =>
    intro first r hc ht hsize
    exact ⟨[], (r, notes), rfl, rfl, rfl, hc, Registry.Grows.refl r, hsize, rfl, fun k _ _ => by omega⟩
  | succ count ih =>
    intro first r hc ht hsize
    rw [List.range'_succ, List.mapM_cons]
    refine Declaring.newFunction_bind hc ht fun r' hc' hgrow hann hsize' hvariables _ => ?_
    rw [hsize] at hann hsize' ⊢
    refine (ih (first + 1) hc' (hgrow.texts _ _ ht) hsize').bind fun ids after hafter => ?_
    obtain ⟨rfl, hnotes, hc'', hgrow', hsize'', hvariables', hall⟩ := hafter
    refine Gives.pure ⟨rfl, hnotes, hc'', hgrow.trans hgrow', by omega, hvariables'.trans hvariables, fun k hk hlt => ?_⟩
    -- the first function was announced just now and the growth keeps it; the others are those of the induction
    by_cases he : k = first
    · rw [he]; exact hann.mono hgrow'
    · exact hall k (by omega) (by omega)

/-! ## The common roles

Both strategies declare the three variables of type `int` first.  The registry after that is a closed term; what is known of
it is put together from the declarations all the same, as computing with it again and again would be slow. -/

namespace Registry

/-- The registry with the variables of type `int` that the roles stand for. -/
def withInts : Registry :=
  (((withCTypes.declareVariable intType "arg").2.declareVariable intType "sum").2.declareVariable intType "i").2

/-- After the common declarations the three roles are known by name. -/
theorem withInts_spec :
    withInts.symbols.Consistent ∧ withCTypes.Grows withInts ∧ withInts.Has argVar "arg" "int" ∧
      withInts.Has sumVar "sum" "int" ∧ withInts.Has counterVar "i" "int" := by
  have hint : withCTypes.symbols.text? intType.spelling = some "int" := rfl
  -- each declaration is made on what the one before it has left, and what is known goes along
  obtain ⟨hc₁, hg₁, harg, -⟩ := declareVariable_spec withCTypes_consistent hint "arg"
  obtain ⟨hc₂, hg₂, hsum, -⟩ := declareVariable_spec hc₁ (hg₁.texts _ _ hint) "sum"
  obtain ⟨hc₃, hg₃, hcounter, -⟩ := declareVariable_spec hc₂ (hg₂.texts _ _ (hg₁.texts _ _ hint)) "i"
  exact ⟨hc₃, (hg₁.trans hg₂).trans hg₃, (harg.mono hg₂).mono hg₃, hsum.mono hg₃, hcounter⟩

end Registry

/-- All declarations, from those of the roles and of the helpers. -/
theorem declareAll_gives {s : Strategy σ} {i : Idiom} {size : Nat} {notes notes' : σ} {r : Registry}
    {post : Outline → Registry × σ → Prop} (hroles : s.roles (Registry.withCTypes, notes) = .ok i.roles (r, notes'))
    (hparams : s.params notes' i.roles = i.params) (hc : r.symbols.Consistent) (hg : Registry.withCTypes.Grows r)
    (hsize : r.functions.size = 0)
    (h : ∀ r', r'.symbols.Consistent → r.Grows r' → r'.functions.size = size → r'.vars = r.vars →
      (∀ k < size, r'.Announces ⟨k⟩ "int" (testName k) i.params) →
      Gives s.helpers (r', notes') fun helpers after =>
        post { roles := i.roles, tests := testIds size, helpers := helpers } after) :
    Gives (declareAll s size) (Registry.withCTypes, notes) post := by
  have hint : r.type "int" = .ok intType := (hg.type_eq "int").trans rfl
  have htext : r.symbols.text? intType.spelling = some "int" :=
    hg.texts _ _ (show Registry.withCTypes.symbols.text? intType.spelling = some "int" from rfl)
  -- the roles are declared by the strategy, and from there on the registry only grows
  unfold declareAll
  refine Gives.bind_eq hroles (Declaring.type_bind hint (Gives.bind_eq rfl ?_))
  rw [hparams, List.range_eq_range']
  refine (newTests_gives size 0 hc htext hsize).bind fun ids after hafter => ?_
  obtain ⟨rfl, hnotes, hc', hg', hsize', hvariables, hall⟩ := hafter
  obtain ⟨r', notes''⟩ := after
  obtain rfl : notes'' = notes' := hnotes
  refine (h r' hc' hg' (hsize'.trans (Nat.zero_add size)) hvariables fun k hk => hall k (Nat.zero_le k) (by omega)).bind
    fun helpers last hlast => ?_
  rw [← List.range_eq_range']
  exact Gives.pure hlast

/-! ## Programs that share an array

The array strategy has no notes and no helpers.  What it needs is the array among the roles, and that products of sizes do
not wrap round when an index is drawn. -/

namespace ArrayBacked

/-- A call hands on the argument and the array, and these are the two parameters. -/
theorem idiom_fitting (size : Nat) : (arrayIdiom size).Fitting := fun _ => rfl

/-- The three common roles are among the variables of the idiom. -/
theorem idiom_namesRoles (size : Nat) : (arrayIdiom size).NamesRoles := by
  constructor <;> simp [arrayIdiom]

/-- There are no helpers, so that none of them is a generated function. -/
theorem idiom_apart (size : Nat) : (arrayIdiom size).Apart size := nofun

/-- The registry with all roles. -/
def withArray : Registry := (Registry.withInts.declareVariable ⟨⟨1⟩⟩ "arr").2

/-- The roles are declared as the idiom has them. -/
theorem roles_eq (size : Nat) (notes : Unit) :
    arrayBacked.roles (Registry.withCTypes, notes) = .ok (arrayIdiom size).roles (withArray, notes) := rfl

/-- What this strategy declares is the ground of its idiom. -/
theorem declares (size : Nat) (notes : Unit) : arrayBacked.Declares (arrayIdiom size) size notes fun _ => True := by
  obtain ⟨hc, hg, harg, hsum, hcounter⟩ := Registry.withInts_spec
  have harray : Registry.withCTypes.symbols.text? ⟨1⟩ = some "int*" := rfl
  obtain ⟨hc', hg', harr, -⟩ := Registry.declareVariable_spec (t := ⟨⟨1⟩⟩) hc (hg.texts _ _ harray) "arr"
  refine declareAll_gives (roles_eq size notes) rfl hc' (hg.trans hg') rfl fun r hcr hgr _ _ htests => ?_
  refine Gives.pure ⟨rfl, trivial, hcr, ⟨(hg.trans hg').trans hgr, fun x hx => ?_, htests, nofun⟩, nofun⟩
  simp only [arrayIdiom, List.mem_cons, List.not_mem_nil, or_false] at hx
  -- three variables are known since before the array, and the array is the last one
  rcases hx with rfl | rfl | rfl | rfl
  · exact (harg.mono hg').mono hgr
  · exact (hsum.mono hg').mono hgr
  · exact (hcounter.mono hg').mono hgr
  · exact harr.mono hgr

variable {size : Nat} {r : Registry}

/-- A place that is drawn is an element of the array at an index that exists. -/
theorem drawElement_gives (pos : 0 < size) (fits : size * size < 2 ^ 63) {before : Source × Unit} :
    Gives (drawElement (arrayIdiom size).roles size) before fun e _ =>
      ∃ place < size * size, e = (arrVar, .int place) := by
  refine Gives.orFail_bind (a := arrVar) rfl ?_
  refine (Drawing.below_gives (Nat.mul_pos pos pos) (by omega)).bind fun n after hn => Gives.pure ⟨n, hn.1, ?_⟩
  -- the index is drawn from a range below the limit, so that it is shown as it was drawn
  rw [wrapInt64_of_lt (Nat.lt_trans hn.1 fits)]

/-- The answers of this strategy are those of its idiom. -/
theorem speaks (pos : 0 < size) (fits : size * size < 2 ^ 63) (hr : Ground r (arrayIdiom size) size) :
    arrayBacked.Speaks (arrayIdiom size) size (fun _ => True) (fun _ _ _ => True) r where
  args _ _ _ := rfl
  guard _ _ := hr.positive_ok argVar
  read before _ := by
    refine (drawElement_gives pos fits).bind fun e after he => ?_
    obtain ⟨place, hplace, rfl⟩ := he
    exact Gives.orFail_bind hr.operation_ok.1 (Gives.pure ⟨trivial, place, hplace, trivial, rfl⟩)
  write call before _ := by
    refine (drawElement_gives pos fits).bind fun e after he => ?_
    obtain ⟨place, hplace, rfl⟩ := he
    refine Gives.orFail_bind hr.operation_ok.1 (Gives.orFail_bind (hr.positive_ok argVar) ?_)
    exact Gives.pure ⟨rfl, place, hplace, rfl⟩
  prelude before _ := by
    refine Gives.orFail_bind (a := arrVar) rfl ?_
    rw [valueBound_of_lt fits]
    refine (Drawing.manyUpTo_gives (by omega) (size * size)).bind fun values after hvalues => ?_
    exact Gives.orFail_bind hr.intType_ok (Gives.pure ⟨rfl, values, hvalues.1, hvalues.2.1, rfl⟩)

/-- A program whose functions share an array is made from a sketch. -/
theorem assembled (config : SynthesisConfig) (before : Source × Unit) (pos : 0 < config.functions)
    (fits : config.functions * config.functions < 2 ^ 63) :
    Gives (assemble arrayBacked config) before fun a _ =>
      ∃ sketch, a.MadeFrom (arrayIdiom config.functions) config.functions config.budget sketch ∧
        sketch.Bounded config.functions := by
  refine (assemble_gives (declares config.functions before.2) (fun h => h) (fun r hr => speaks pos fits hr)
    (idiom_fitting _) (idiom_namesRoles _) (idiom_apart _) pos fits).imp fun a after ha => ?_
  obtain ⟨sketch, hmade, hbounded, -⟩ := ha
  exact ⟨sketch, hmade, hbounded⟩

end ArrayBacked

/-! ## Programs that work on files

Here the answers depend on the notes.  The helpers are declared behind the generated functions and remembered; and a place
that is read for the first time gets a file.  The first is invariant from then on (`Knows`), the second is what a step does
(`Files`). -/

namespace FileBacked

/-- A call hands on the argument, and this is the one parameter. -/
theorem idiom_fitting (size : Nat) : (fileIdiom size).Fitting := fun _ => rfl

theorem idiom_namesRoles (size : Nat) : (fileIdiom size).NamesRoles := by
  constructor <;> simp [fileIdiom]

/-- The two helpers come behind the generated functions. -/
theorem idiom_apart (size : Nat) : (fileIdiom size).Apart size := by
  intro h hh
  simp only [fileIdiom, List.mem_cons, List.not_mem_nil, or_false] at hh
  rcases hh with rfl | rfl
  · exact Nat.le_refl size
  · exact Nat.le_succ size

/-- The notes remember the helpers. -/
def Knows (size : Nat) (notes : Notes) : Prop := notes.reader = some ⟨size⟩ ∧ notes.writer = some ⟨size + 1⟩

/-- What a number that is read does to the notes. -/
inductive Files (size : Nat) : Notes → Nat → Notes → Prop
  /-- The number is filed already, and nothing happens. -/
  | known {notes n contents} (small : n < size) (filed : notes.inputs.lookup n = some contents) : Files size notes n notes
  /-- The number comes to be filed with as many values as there are functions. -/
  | fresh {notes n values} (small : n < size) (absent : notes.inputs.lookup n = none) (full : values.length = size)
    (bounded : ∀ v ∈ values, v ≤ size * size) :
    Files size notes n { notes with inputs := insertInput n (fileOfValues values) notes.inputs }

/-- Filing a number does not touch what is known of the helpers. -/
theorem Files.knows {size n : Nat} {notes after : Notes} (h : Files size notes n after) (hk : Knows size notes) :
    Knows size after := by
  cases h with
  | known => exact hk
  | fresh => exact hk

theorem roles_eq (size : Nat) (notes : Notes) :
    fileBacked.roles (Registry.withCTypes, notes) = .ok (fileIdiom size).roles (Registry.withInts, notes) := rfl

/-- The helpers are declared, on a registry with the roles and the generated functions. -/
theorem declareHelpers_gives {size : Nat} {r : Registry} {notes : Notes} (hc : r.symbols.Consistent)
    (hg : Registry.withCTypes.Grows r) (hsize : r.functions.size = size) (hvariables : r.vars.size = 3) :
    Gives declareHelpers (r, notes) fun helpers after =>
      helpers = [⟨size⟩, ⟨size + 1⟩] ∧ (Knows size after.2 ∧ after.2.inputs = notes.inputs) ∧
      after.1.symbols.Consistent ∧ r.Grows after.1 ∧
      after.1.Has pathVar "path" "const char*" ∧ after.1.Has valueVar "value" "int" ∧
      after.1.Has totalVar "total" "int" ∧
      after.1.Announces ⟨size⟩ "int" readerName [pathVar] ∧ after.1.bodyOf ⟨size⟩ = some readerLines ∧
      after.1.Announces ⟨size + 1⟩ "void" writerName [pathVar, valueVar] ∧
      after.1.bodyOf ⟨size + 1⟩ = some writerLines := by
  have hint : r.symbols.text? intType.spelling = some "int" :=
    hg.texts _ _ (show Registry.withCTypes.symbols.text? intType.spelling = some "int" from rfl)
  have hstring : r.symbols.text? ⟨2⟩ = some "const char*" :=
    hg.texts _ _ (show Registry.withCTypes.symbols.text? ⟨2⟩ = some "const char*" from rfl)
  have hvoid : r.symbols.text? ⟨3⟩ = some "void" :=
    hg.texts _ _ (show Registry.withCTypes.symbols.text? ⟨3⟩ = some "void" from rfl)
  -- three types and one operation are looked up before anything is declared
  unfold declareHelpers
  refine Declaring.type_bind ((hg.type_eq "int").trans rfl) (Declaring.type_bind ((hg.type_eq "string").trans rfl)
    (Declaring.type_bind ((hg.type_eq "void").trans rfl) (Declaring.registry_bind
      (Gives.orFail_bind ((hg.operation_eq "sum").trans rfl) ?_))))
  refine Declaring.newVariable_bind hc hstring fun r₁ hc₁ hg₁ hpath hv₁ hf₁ => ?_
  refine Declaring.newVariable_bind hc₁ (hg₁.texts _ _ hint) fun r₂ hc₂ hg₂ hvalue hv₂ hf₂ => ?_
  have hg₂' := hg₁.trans hg₂
  refine Declaring.newVariable_bind hc₂ (hg₂'.texts _ _ hint) fun r₃ hc₃ hg₃ htotal hv₃ hf₃ => ?_
  have hg₃' := hg₂'.trans hg₃
  -- the roles have the first three ids
  rw [hvariables] at hpath hv₁ ⊢
  rw [hv₁] at hvalue hv₂ ⊢
  rw [hv₂] at htotal ⊢
  have hsize₃ : r₃.functions.size = size := by rw [hf₃, hf₂, hf₁, hsize]
  refine Declaring.newFunction_bind hc₃ (hg₃'.texts _ _ hint) fun r₄ hc₄ hg₄ hreader hs₄ _ _ => ?_
  rw [hsize₃] at hreader hs₄ ⊢
  have hpath₄ := ((hpath.mono hg₂).mono hg₃).mono hg₄
  have hvalue₄ := (hvalue.mono hg₃).mono hg₄
  have htotal₄ := htotal.mono hg₄
  -- the body is made with the names of that moment, and later declarations do not change them
  have hbody : readerBody r₄ intType cOperators.plus ⟨3⟩ ⟨4⟩ ⟨5⟩ = readerLines := by
    rw [readerBody, openFile, hpath₄.variableName, hvalue₄.variableName]
    rfl
  refine Declaring.registry_bind (Declaring.setBody_bind hreader fun r₅ hsym₅ hg₅ hs₅ hb₅ _ => ?_)
  have hc₅ : r₅.symbols.Consistent := hsym₅ ▸ hc₄
  have hg₅' := (hg₃'.trans hg₄).trans hg₅
  refine Declaring.newFunction_bind hc₅ (hg₅'.texts _ _ hvoid) fun r₆ hc₆ hg₆ hwriter hs₆ _ hb₆ => ?_
  rw [hs₅, hs₄] at hwriter hs₆ ⊢
  have hbody' : writerBody r₆ ⟨3⟩ ⟨4⟩ = writerLines := by
    rw [writerBody, openFile, ((hpath₄.mono hg₅).mono hg₆).variableName, ((hvalue₄.mono hg₅).mono hg₆).variableName]
    rfl
  refine Declaring.registry_bind (Declaring.setBody_bind hwriter fun r₇ hsym₇ hg₇ hs₇ hb₇ ho₇ => ?_)
  have hg₇' := (hg₅.trans hg₆).trans hg₇
  -- the second body is given to another function than the first, which therefore keeps its own
  have hne : (⟨size⟩ : FuncId) ≠ ⟨size + 1⟩ := by
    intro he
    exact absurd (congrArg FuncId.index he) (Nat.ne_of_lt (Nat.lt_succ_self size))
  refine Gives.bind_eq rfl (Gives.pure ⟨rfl, ⟨⟨rfl, rfl⟩, rfl⟩, hsym₇ ▸ hc₆, (hg₅'.trans hg₆).trans hg₇, hpath₄.mono hg₇',
    hvalue₄.mono hg₇', htotal₄.mono hg₇', hreader.mono hg₇', ?_, hwriter.mono hg₇, ?_⟩)
  · rw [ho₇ _ hne, ← hbody]
    exact hb₆ _ _ hb₅
  · rw [← hbody']
    exact hb₇

/-- What this strategy declares is the ground of its idiom, and it remembers its helpers; nothing is filed yet but what was
filed before. -/
theorem declares (size : Nat) (notes : Notes) : fileBacked.Declares (fileIdiom size) size notes fun after =>
    Knows size after ∧ after.inputs = notes.inputs := by
  obtain ⟨hc, hg, harg, hsum, hcounter⟩ := Registry.withInts_spec
  refine declareAll_gives (roles_eq size notes) rfl hc hg rfl fun r hcr hgr hsize hvariables htests => ?_
  have hvars : r.vars.size = 3 := by rw [hvariables]; rfl
  refine (declareHelpers_gives hcr (hg.trans hgr) hsize hvars).imp fun helpers after hafter => ?_
  obtain ⟨rfl, hk, hca, hga, hpath, hvalue, htotal, hreader, hrb, hwriter, hwb⟩ := hafter
  refine ⟨rfl, hk, hca, ⟨(hg.trans hgr).trans hga, fun x hx => ?_, fun k hk => (htests k hk).mono hga, fun h hh => ?_⟩,
    fun h hh => ?_⟩
  · simp only [fileIdiom, List.mem_cons, List.not_mem_nil, or_false] at hx
    rcases hx with rfl | rfl | rfl | rfl | rfl | rfl
    · exact (harg.mono hgr).mono hga
    · exact (hsum.mono hgr).mono hga
    · exact (hcounter.mono hgr).mono hga
    · exact hpath
    · exact hvalue
    · exact htotal
  · simp only [fileIdiom, List.mem_cons, List.not_mem_nil, or_false] at hh
    rcases hh with rfl | rfl
    · exact hreader
    · exact hwriter
  · simp only [fileIdiom, List.mem_cons, List.not_mem_nil, or_false] at hh
    rcases hh with rfl | rfl
    · exact hrb
    · exact hwb

variable {size : Nat} {r : Registry}

/-- Files get their contents when they are first needed. -/
theorem ensureInput_gives (fits : size * size < 2 ^ 63) {n : Nat} (hn : n < size) {before : Source × Notes} :
    Gives (ensureInput n size) before fun _ after => Files size before.2 n after.2 := by
  unfold ensureInput
  refine Drawing.notes_bind ?_
  -- a number that is filed is left alone, and only one that is not costs draws
  cases hl : before.2.inputs.lookup n with
  | some contents => exact Gives.pure (.known hn hl)
  | none =>
    dsimp only
    rw [valueBound_of_lt fits]
    refine (Drawing.manyUpTo_gives (by omega) size).bind fun values after hvalues => ?_
    obtain ⟨hfull, hbounded, hnotes⟩ := hvalues
    refine ⟨(), _, rfl, ?_⟩
    show Files size before.2 n { after.2 with inputs := insertInput n (fileOfValues values) after.2.inputs }
    rw [hnotes]
    exact .fresh hn hl hfull hbounded

/-- The answers of this strategy are those of its idiom, as long as it knows its helpers. -/
theorem speaks (pos : 0 < size) (fits : size * size < 2 ^ 63) (hr : Ground r (fileIdiom size) size) :
    fileBacked.Speaks (fileIdiom size) size (Knows size) (Files size) r := by
  have hle : size ≤ size * size := Nat.le_mul_of_pos_left size pos
  have hreader := hr.helpers _ (show _ ∈ (fileIdiom size).helpers from List.mem_cons_self)
  have hwriter := hr.helpers _ (show _ ∈ (fileIdiom size).helpers from List.mem_cons_of_mem _ List.mem_cons_self)
  -- the arguments and the condition are fixed; what reads files a number, what writes does not, and `main` needs no values
  refine ⟨fun _ _ _ => rfl, fun _ _ => hr.positive_ok sumVar, fun before hk => ?_, fun call before hk => ?_,
    fun before hk => Gives.pure ⟨rfl, List.replicate (size * size) 0, List.length_replicate, ?_, rfl⟩⟩
  · refine Drawing.notes_bind (Gives.orFail_bind (a := ⟨size⟩) (by rw [hk.1]; rfl) ?_)
    refine (Drawing.below_gives pos (by omega)).bind fun place after hplace => ?_
    refine (ensureInput_gives fits hplace.1).bind fun _ last hfiles => ?_
    have hfiles' : Files size before.2 place last.2 := hplace.2 ▸ hfiles
    refine Gives.orFail_bind (hreader.call rfl) (Gives.orFail_bind hr.operation_ok.1 ?_)
    exact Gives.pure ⟨hfiles'.knows hk, place, hplace.1, hfiles', rfl⟩
  · refine Drawing.notes_bind (Gives.orFail_bind (a := ⟨size + 1⟩) (by rw [hk.2]; rfl) ?_)
    refine (Drawing.below_gives pos (by omega)).bind fun place after hplace => ?_
    refine Gives.orFail_bind (hwriter.call rfl) (Gives.orFail_bind (hr.positive_ok argVar) ?_)
    exact Gives.pure ⟨hplace.2, place, hplace.1, rfl⟩
  · intro v hv
    rw [List.eq_of_mem_replicate hv]
    exact Nat.zero_le _

/-- A program that works on files is made from a sketch, and the numbers that it reads are filed on top of what was filed
before. -/
theorem assembled (config : SynthesisConfig) (before : Source × Notes) (pos : 0 < config.functions)
    (fits : config.functions * config.functions < 2 ^ 63) :
    Gives (assemble fileBacked config) before fun a after =>
      ∃ sketch, a.MadeFrom (fileIdiom config.functions) config.functions config.budget sketch ∧
        sketch.Bounded config.functions ∧ ∃ notes : Notes, notes.inputs = before.2.inputs ∧
          Trail (Files config.functions) notes (sketch.reads config.functions) after.2 := by
  refine (assemble_gives (declares config.functions before.2) (fun h => h.1) (fun r hr => speaks pos fits hr)
    (idiom_fitting _) (idiom_namesRoles _) (idiom_apart _) pos fits).imp fun a after ha => ?_
  obtain ⟨sketch, hmade, hbounded, notes, hopen, htrail⟩ := ha
  exact ⟨sketch, hmade, hbounded, notes, hopen.2, htrail⟩

end FileBacked

end SeedCorpus
