/-
  The files of programs that are made one after the other, while some runs fail.

  The strategy that works on files outlives the run.  It files numbers while bodies are drawn, and hands the files over at
  the very end of a run that succeeds; a run that fails keeps what it has filed.

  So a program always has the files that it reads.  If the run before it succeeded, or if it is the first, it has no others;
  otherwise it has those too that the failed runs before it have left (`synthesizeMany_files`).  This holds for all
  strategies that defer to the one that works on files, however they spoil runs; the altered ones among them
  (`altered_defersTo`) show that files are left indeed (`ghost_leaves_file`).
-/
import SeedCorpus.Proofs.Files.Inputs
import SeedCorpus.Proofs.Files.Mentions
import SeedCorpus.Proofs.Synthesis.Building
import SeedCorpus.Synthesis.Altered

namespace SeedCorpus

open SeedCorpus.Random (Source)

variable {σ τ α : Type}

namespace FileBacked

/-- The generated functions of programs that work on files take one argument. -/
theorem servesAll {size : Nat} (pos : 0 < size) : fileBacked.ServesAll size := by
  intro notes outline after hok n notes' first
  obtain ⟨outline', after', hdeclared, rfl, -, -, hground, -⟩ := declares size notes
  have heq : EStateM.Result.ok outline after = EStateM.Result.ok _ after' := hok.symm.trans hdeclared
  cases heq
  -- a number that is too great stands for the first function
  have htest : ∃ k < size, (testIds size)[n]?.getD ⟨0⟩ = ⟨k⟩ := by
    by_cases hn : n < size
    · exact ⟨n, hn, by rw [testIds_getElem? hn, Option.getD_some]⟩
    · refine ⟨0, pos, ?_⟩
      rw [List.getElem?_eq_none (by rw [length_testIds]; omega), Option.getD_none]
  obtain ⟨k, hk, htest⟩ := htest
  show after.1.arity ((testIds size)[n]?.getD ⟨0⟩) = 1
  rw [htest, (hground.tests k hk).arity]
  rfl

/-! ## What failed runs leave

What is left is what is filed when a run begins, in the part of the notes that belongs to the strategy below.  A run that
comes to a program is one of that strategy (`DefersTo.synthesize`), for which it is known what is filed at the end. -/

/-- The numbers that are filed when a run begins. -/
def leftBefore (s : Strategy τ) (view : τ → Notes) (config : SynthesisConfig) (state : Source × τ) (k : Nat) : List Nat :=
  numbers (view (synthesizeMany s config state k).2.2).inputs

variable {s : Strategy τ} {view : τ → Notes}

/-- A run that comes to a program: the program is that of a sketch, and no file is left. -/
theorem comes_of_synthesize (config : SynthesisConfig) (h : s.DefersTo fileBacked view) (pos : 0 < config.functions)
    (fits : config.functions * config.functions < 2 ^ 63) {before : Source × τ} {p : Program}
    (hp : (outcome (synthesize s config) before).1 = .ok p) :
    (∃ a sketch inputs, (outcome (assemble fileBacked config) (before.1, view before.2)).1 = .ok a ∧
      Comes config (view before.2).inputs a sketch inputs p) ∧
      (view (outcome (synthesize s config) before).2.2).inputs = [] := by
  obtain ⟨⟨g', t'⟩, hok⟩ := outcome_eq_ok.mp hp
  obtain ⟨g, t⟩ := before
  obtain ⟨a, sketch, inputs, p', last, ha, hsame, hnone, hcomes⟩ := synthesized config (g, view t) pos fits
  -- the run below comes to the same program, and what it comes to is known
  have hbelow := h.synthesize (servesAll pos) g t p g' t' hok
  have heq : EStateM.Result.ok p (g', view t') = EStateM.Result.ok p' last := hbelow.symm.trans hsame
  cases heq
  refine ⟨⟨a, sketch, inputs, ha, hcomes⟩, ?_⟩
  rw [outcome, hok]
  exact hnone

end FileBacked

/-- **The files of every program that a run comes to are those that it reads and those that were left.**  Nothing is left
if it is the first run or if the run before it came to a program. -/
theorem synthesizeMany_files {s : Strategy τ} {view : τ → FileBacked.Notes} (h : s.DefersTo fileBacked view)
    (config : SynthesisConfig) (g : Source) (t : τ) (hfresh : (view t).inputs = []) (pos : 0 < config.functions)
    (fits : config.functions * config.functions < 2 ^ 63) {count k : Nat} {p : Program}
    (hp : (synthesizeMany s config (g, t) count).1[k]? = some (.ok p)) :
    (∀ n, toString n ∈ p.auxFiles.map (·.name) ↔
      MentionsRead p.source n ∨ n ∈ FileBacked.leftBefore s view config (g, t) k) ∧
    (∀ f ∈ p.auxFiles, ∃ n : Nat, f.name = toString n) ∧
    ((k = 0 ∨ ∃ j q, k = j + 1 ∧ (synthesizeMany s config (g, t) count).1[j]? = some (.ok q)) →
      FileBacked.leftBefore s view config (g, t) k = []) := by
  obtain ⟨⟨a, sketch, inputs, -, hcomes⟩, -⟩ :=
    FileBacked.comes_of_synthesize config h pos fits (synthesizeMany_getElem? k _ hp)
  refine ⟨fun n => ?_, fun f hf => ?_, ?_⟩
  · rw [hcomes.files, FileBacked.mem_names_filesOf, hcomes.source, Sketch.mentionsRead_source, hcomes.read, or_comm]
    rfl
  · rw [hcomes.files] at hf
    obtain ⟨e, -, rfl⟩ := List.mem_map.mp hf
    exact ⟨e.1, rfl⟩
  · rintro (rfl | ⟨j, q, rfl, hq⟩)
    · exact congrArg FileBacked.numbers hfresh
    · obtain ⟨-, hnone⟩ := FileBacked.comes_of_synthesize config h pos fits (synthesizeMany_getElem? j _ hq)
      -- the run before it came to a program, and so left nothing
      rw [FileBacked.leftBefore, synthesizeMany_succ, hnone]
      rfl

/-! ## Altered strategies

An altered strategy asks the one below and changes some of the answers.  It defers to it if it keeps the variables, the
parameters and the helpers, and changes the number of arguments if it changes arguments at all. -/

/-- An act of the strategy below is what it is. -/
theorem Follows.ofBelow {X : Type} (act : EStateM SynthesisError (X × σ) α) :
    Follows Altered.Notes.inner (Altered.below act) act := by
  intro x t a x' t' h
  cases hact : act (x, t.inner) with
  | ok b after =>
    simp only [Altered.below, hact] at h
    cases h
    rfl
  | error e after =>
    simp only [Altered.below, hact] at h
    cases h

/-- A function that was just announced has no body. -/
theorem Registry.lacks_declareFunction (r : Registry) (t : ValueType) (name : String) (params : List VarId) :
    (r.declareFunction t name params).2.Lacks (r.declareFunction t name params).1 := by
  constructor
  · exact Nat.lt_of_lt_of_eq (Nat.lt_succ_self _) (Array.size_push _).symm
  · have hself : (r.declareFunction t name params).2.functionAt? (r.declareFunction t name params).1
        = some { returnType := t, name := (r.symbols.intern name).1, params := params } := Array.getElem?_push_size
    rw [bodyOf, hself]
    rfl

namespace FileBacked

/-- The alterations that keep the variables and the helpers, and change the arguments of a call in their number if at all. -/
structure Spoils (a : Alteration) : Prop where
  /-- The variables. -/
  names : a.names = none
  /-- The parameters. -/
  params : a.params = none
  /-- The helpers. -/
  skipHelpers : a.skipHelpers = false
  /-- The arguments. -/
  args : a.dropArgs = 0 ∧ a.extraArgs = 0 ∨ 1 - a.dropArgs + a.extraArgs ≠ 1

/-- Altered helpers are those of the strategy below, or there is one without a body behind them. -/
theorem helpers_altered {a : Alteration} (hskip : a.skipHelpers = false) {r r' : Registry} {t t' : Altered.Notes Notes}
    {ids : List FuncId} (h : Altered.declareHelpers fileBacked a (r, t) = .ok ids (r', t')) :
    fileBacked.helpers (r, t.inner) = .ok ids (r', t'.inner) ∨ ∃ id ∈ ids, r.functions.size ≤ id.index ∧ r'.Lacks id := by
  unfold Altered.declareHelpers at h
  rw [hskip] at h
  obtain ⟨kept, ⟨r₁, t₁⟩, hkept, hnext⟩ := bind_eq_ok.mp h
  have hbelow := Follows.ofBelow fileBacked.helpers r t kept r₁ t₁ hkept
  cases hname : a.bodylessHelper with
  | none =>
    rw [hname] at hnext
    cases hnext
    exact Or.inl hbelow
  | some name =>
    rw [hname] at hnext
    obtain ⟨int, ⟨r₂, t₂⟩, hint, hlast⟩ := bind_eq_ok.mp hnext
    -- the ghost is declared behind all functions of the registry that the helpers were asked for
    have hhelpers : r.Develops r₁ := FileBacked.declareHelpers_evolves r t.inner kept r₁ t₁.inner hbelow
    have hsize := (hhelpers.trans (Evolves.type "int" r₁ t₁ int r₂ t₂ hint)).size_le
    cases hlast
    exact Or.inr ⟨_, List.mem_append_right kept List.mem_cons_self, hsize, r₂.lacks_declareFunction int name []⟩

/-- An altered strategy defers to the one that works on files. -/
theorem altered_defersTo {a : Alteration} (ha : Spoils a) :
    (fileBacked.altered a).DefersTo fileBacked Altered.Notes.inner where
  roles := by
    intro r t roles r' t' h
    unfold Strategy.altered at h
    dsimp only at h
    rw [ha.names] at h
    exact Follows.ofBelow fileBacked.roles r { t with runs := t.runs + 1 } roles r' t' h
  params t roles := by
    unfold Strategy.altered
    dsimp only
    rw [ha.params]
  helpers := by
    intro r t ids r' t' h
    have h' : (if t.active a then Altered.declareHelpers fileBacked a else Altered.below fileBacked.helpers) (r, t)
        = .ok ids (r', t') := h
    split at h'
    · exact helpers_altered ha.skipHelpers h'
    · exact Or.inl (Follows.ofBelow _ _ _ _ _ _ h')
  callArgs t roles first := by
    -- with the changes made, there are as many arguments as before, or they are not one
    have hargs : (fileBacked.altered a).callArgs t roles first =
        if t.active a then [first].take (1 - a.dropArgs) ++ List.replicate a.extraArgs (.int 7) else [first] := rfl
    rw [hargs]
    split
    · rcases ha.args with ⟨hdrop, hextra⟩ | hne
      · rw [hdrop, hextra]
        exact Or.inl rfl
      · refine Or.inr fun hlength => hne ?_
        rw [List.length_append, List.length_take, List.length_replicate] at hlength
        have hmin : min (1 - a.dropArgs) [first].length = 1 - a.dropArgs := Nat.min_eq_left (Nat.sub_le _ _)
        rw [hmin] at hlength
        exact hlength
    · exact Or.inl rfl
  loopGuard t r roles := rfl
  read r roles size := .ofBelow _
  write r roles call size := .ofBelow _
  prelude r roles size := .ofBelow (fileBacked.prelude r roles size)
  takeFiles t := ⟨rfl, rfl⟩

end FileBacked

/-! ## A file that nobody reads

Two runs of one function with one statement.  In the first one there is a helper without a body, so that it fails, but only
after its statement has been drawn, which reads a file.  The second one draws a statement that does not. -/

/-- One function of one statement, which may read a file. -/
def oneReading : SynthesisConfig := { strategy := .flat, functions := 1, statements := some 1 }

/-- In the first run there is a helper without a body. -/
def ghostFirst : Alteration := { onlyRun := some 0, bodylessHelper := some "ghost" }

/-- Runs of which the first fails. -/
def ghostRuns (count : Nat) : List (Except SynthesisError Program) × (Source × Altered.Notes FileBacked.Notes) :=
  synthesizeMany (fileBacked.altered ghostFirst) oneReading (.ofSeed 3, { inner := {} }) count

/-- Nothing but a helper is added. -/
theorem ghostFirst_spoils : FileBacked.Spoils ghostFirst := ⟨rfl, rfl, rfl, Or.inl ⟨rfl, rfl⟩⟩

/-- The first run fails.  When the functions of the second one are drawn, a number is filed, and none of them reads. -/
theorem ghostRuns_drawn : (ghostRuns 1).1.map (·.toOption.isSome) = [false] ∧
    FileBacked.numbers
      (outcome (assemble (fileBacked.altered ghostFirst) oneReading) (ghostRuns 1).2).2.2.inner.inputs = [0] ∧
    (outcome (assemble (fileBacked.altered ghostFirst) oneReading) (ghostRuns 1).2).1.toOption.any (fun a =>
      (sections a.registry a.tests a.helpers a.main).toOption.isSome &&
        (a.registry.bodyOf ⟨0⟩).any fun body => (blockParts body).all fun e => !(e matches .call ⟨1⟩ _)) := by
  decide +kernel

/-- The second run comes to a program with a file. -/
theorem ghostRuns_second : ∃ a after, assemble (fileBacked.altered ghostFirst) oneReading (ghostRuns 1).2 = .ok a after ∧
    ∃ texts body, sections a.registry a.tests a.helpers a.main = .ok texts ∧ a.registry.bodyOf ⟨0⟩ = some body ∧
      (∀ e ∈ blockParts body, ∀ args, e ≠ .call ⟨1⟩ args) ∧
      (ghostRuns 2).1[1]? = some (.ok { source := joinSections texts, auxFiles := FileBacked.filesOf after.2.inner.inputs }) ∧
      FileBacked.numbers after.2.inner.inputs = [0] := by
  -- what has been computed is taken apart: there are functions, they can be written down, and the first has a body
  obtain ⟨-, hnumbers, hassembled⟩ := ghostRuns_drawn
  cases hact : assemble (fileBacked.altered ghostFirst) oneReading (ghostRuns 1).2 with
  | error e after =>
    rw [outcome, hact] at hassembled
    cases hassembled
  | ok a after =>
    rw [outcome, hact] at hassembled hnumbers
    obtain ⟨htexts, hbody⟩ := (Bool.and_eq_true _ _).mp hassembled
    cases hs : sections a.registry a.tests a.helpers a.main with
    | error e => rw [hs] at htexts; cases htexts
    | ok texts =>
      cases hb : a.registry.bodyOf ⟨0⟩ with
      | none => rw [hb] at hbody; cases hbody
      | some body =>
        rw [hb] at hbody
        refine ⟨a, after, rfl, texts, body, hs, hb, fun e he args heq => ?_, ?_, hnumbers⟩
        · have hcall := List.all_eq_true.mp hbody e he
          rw [heq] at hcall
          cases hcall
        · have hlast : (ghostRuns 2).1[1]? = some (outcome (synthesize (fileBacked.altered ghostFirst) oneReading)
              (ghostRuns 1).2).1 := synthesizeMany_last 1 _
          rw [hlast, outcome_of_eq (synthesize_eq hact hs)]
          rfl

/-- A program mentions a read only if a call of the helper that reads occurs in it. -/
theorem FileBacked.not_mentionsRead {before : Source × Altered.Notes FileBacked.Notes} {a : Assembly}
    {after : Source × Altered.Notes FileBacked.Notes} {texts : List String} {body : Block} {n : Nat}
    (hact : assemble (fileBacked.altered ghostFirst) oneReading before = .ok a after)
    (hsections : sections a.registry a.tests a.helpers a.main = .ok texts) (hbody : a.registry.bodyOf ⟨0⟩ = some body)
    (hnone : ∀ e ∈ blockParts body, ∀ args, e ≠ .call ⟨1⟩ args) : ¬ MentionsRead (joinSections texts) n := by
  have hdefers := altered_defersTo ghostFirst_spoils
  obtain ⟨⟨a', sketch, inputs, ha', hcomes⟩, -⟩ := comes_of_synthesize oneReading hdefers (by decide)
    (by decide) (outcome_of_eq (synthesize_eq hact hsections))
  -- the functions of the run are those of the strategy below, as all of them have bodies
  have hsame : a' = a := by
    rcases hdefers.assemble (servesAll (by decide)) hact with hbelow | ⟨id, hid, hmissing⟩
    · rw [outcome_of_eq hbelow] at ha'
      exact (Except.ok.inj ha').symm
    · exact absurd hsections (sections_ne_ok hid hmissing texts)
  subst hsame
  intro hmention
  have hmention' : MentionsRead (joinSections ((sketch.sections fileWording oneReading.functions).map textOf)) n := by
    rw [← hcomes.source]
    exact hmention
  -- a mention in the text comes from a call in a generated function, and there is one such function
  obtain ⟨id, hid, body', hbody', hcall⟩ := hcomes.made.has_value (Sketch.mentionsRead_source.mp hmention')
  rw [hcomes.made.tests] at hid
  obtain rfl : id = ⟨0⟩ := List.mem_singleton.mp hid
  rw [hbody] at hbody'
  obtain rfl := Option.some.inj hbody'
  exact hnone _ hcall _ rfl

/-- **A file is left by the run that failed, and it goes with a program that does not read it.** -/
theorem ghost_leaves_file : ∃ p : Program, (ghostRuns 2).1[1]? = some (.ok p) ∧ p.auxFiles.map (·.name) = ["0"] ∧
    ¬ MentionsRead p.source 0 := by
  obtain ⟨a, after, hact, texts, body, hsections, hbody, hnone, hsecond, hnumbers⟩ := ghostRuns_second
  refine ⟨_, hsecond, ?_, FileBacked.not_mentionsRead hact hsections hbody hnone⟩
  rw [FileBacked.names_filesOf, hnumbers]
  rfl

/-- What the files of that program are: those that it reads, and those that were left. -/
theorem ghost_files : ∃ p : Program, (ghostRuns 2).1[1]? = some (.ok p) ∧
    ∀ n, toString n ∈ p.auxFiles.map (·.name) ↔ MentionsRead p.source n ∨
      n ∈ FileBacked.leftBefore (fileBacked.altered ghostFirst) (·.inner) oneReading (.ofSeed 3, { inner := {} }) 1 := by
  obtain ⟨a, after, -, texts, body, -, -, -, hsecond, -⟩ := ghostRuns_second
  exact ⟨_, hsecond, (synthesizeMany_files (FileBacked.altered_defersTo ghostFirst_spoils) oneReading (.ofSeed 3) _ rfl
    (by decide) (by decide) hsecond).1⟩

end SeedCorpus
