/-
  The text of every program that is generated.

  Both idioms are worded as their wordings say (`ArrayBacked.wordedAs`, `FileBacked.wordedAs`), and both strategies speak
  them; so every program that a configuration asks for comes about, and its text is that of a sketch in which all numbers
  are in their ranges (`generate_sketch`).
-/
import SeedCorpus.Proofs.Rendering.Wording
import SeedCorpus.Proofs.Synthesis.Deferring
import SeedCorpus.Proofs.Synthesis.Speaking

namespace SeedCorpus

open SeedCorpus.Random (Source)

variable {r : Registry} {size : Nat}

/-! ## Two wordings

One lemma for each way of making programs, one goal for each field of `Idiom.WordedAs`.  Both compute: the names are those of
the roles and of the helpers, and what is left is how strings are put together. -/

theorem toString_natCast (n : Nat) : toString (n : Int) = toString n := rfl

/-- The text of a parameter. -/
theorem Registry.renderParams_eq (r : Registry) (params : List VarId) :
    r.renderParams params = ", ".intercalate (params.map fun p => r.typeName p ++ " " ++ r.variableName p) := rfl

/-- Programs that share an array are worded as `arrayWording` says. -/
theorem ArrayBacked.wordedAs (hr : Ground r (arrayIdiom size) size) : (arrayIdiom size).WordedAs arrayWording r := by
  have hs := hr.saysRoles (ArrayBacked.idiom_namesRoles size)
  have harg := hr.has_arg (ArrayBacked.idiom_namesRoles size)
  have harr := ArrayBacked.has_arr hr
  have hname : r.variableName ArrayBacked.arrVar = "arr" := harr.variableName
  refine ⟨?_, fun first => ?_, hs.arg, fun place => ?_, fun place call => ⟨rfl, ?_⟩, fun values => ⟨rfl, ?_⟩, nofun, rfl⟩
  · simp only [arrayIdiom, Registry.renderParams_eq, List.map_cons, List.map_nil, hs.arg, hname, harg.typeName,
      harr.typeName]
    rfl
  · simp only [arrayIdiom, Expr.renderArgs, Expr.render, hname, arrayWording, String.append_assoc]
    rfl
  · simp only [arrayIdiom, Expr.render, hname, arrayWording]
    rfl
  · simp only [arrayIdiom, Stmt.lines, Stmt.assignText, Place.render, Place.toExpr, Expr.render, hname, Option.map_some,
      hs.plus, Option.getD_some, arrayWording]
    -- the strings are bracketed differently; as lists of characters they are the same
    refine congrArg (fun text => [(0, text)]) (String.toList_inj.mp ?_)
    simp only [String.toList_append]
    rw [toString_natCast]
    simp
  · simp only [arrayIdiom, blockLines, Stmt.lines, Stmt.declareText, Declarator.render, Expr.render, hs.int, hname,
      List.append_nil, arrayWording, ArrayBacked.initializer, List.map_cons, List.map_nil]
    refine congrArg (fun text => [(0, text)]) (String.toList_inj.mp ?_)
    simp

/-- Programs that read and write files are worded as `fileWording` says, their two helpers line by line. -/
theorem FileBacked.wordedAs (hr : Ground r (fileIdiom size) size) : (fileIdiom size).WordedAs fileWording r := by
  have hs := hr.saysRoles (FileBacked.idiom_namesRoles size)
  have harg := hr.has_arg (FileBacked.idiom_namesRoles size)
  have hpath := FileBacked.has_path hr
  have hvalue := FileBacked.has_value hr
  have htotal := FileBacked.has_total hr
  have hreader : r.functionName ⟨size⟩ = "read_input" :=
    (hr.helpers _ (show _ ∈ (fileIdiom size).helpers from List.mem_cons_self)).functionName
  have hwriter : r.functionName ⟨size + 1⟩ = "write_output" :=
    (hr.helpers _ (show _ ∈ (fileIdiom size).helpers from List.mem_cons_of_mem _ List.mem_cons_self)).functionName
  refine ⟨?_, fun first => rfl, hs.sum, fun place => ?_, fun place call => ⟨rfl, ?_⟩, fun values => ⟨rfl, rfl⟩, ?_, ?_⟩
  · simp only [fileIdiom, Registry.renderParams_eq, List.map_cons, List.map_nil, hs.arg, harg.typeName]
    rfl
  · simp only [fileIdiom, Expr.render, Expr.renderArgs, FileBacked.quoted, hreader, fileWording]
    refine String.toList_inj.mp ?_
    simp
  · simp only [fileIdiom, Stmt.lines, Expr.render, Expr.renderArgs, FileBacked.quoted, hwriter, fileWording]
    refine congrArg (fun text => [(0, text)]) (String.toList_inj.mp ?_)
    simp
  · intro h hh
    simp only [fileIdiom, List.mem_cons, List.not_mem_nil, or_false] at hh
    rcases hh with rfl | rfl <;> rfl
  · simp only [fileIdiom, FileBacked.readerName, FileBacked.writerName, FileBacked.readerLines, FileBacked.writerLines,
      FileBacked.opened, FileBacked.openFailed, FileBacked.closeFile, Stmt.whenever, Stmt.scalar, Stmt.update,
      List.map_cons, List.map_nil, blockLines, Stmt.lines, Stmt.assignText, Stmt.declareText, Declarator.render,
      Place.render, Place.toExpr, Expr.render, Registry.renderParams_eq, hpath.typeName, hvalue.typeName,
      hpath.variableName, hvalue.variableName, htotal.variableName, hs.int, hs.plus, Option.map_some, Option.getD_some]
    rfl

/-! ## Both strategies

From here on no result speaks of one of the strategies: a configuration has an idiom, a wording and an assembly. -/

namespace SynthesisConfig

/-- The idiom of the programs of a configuration. -/
def idiom (config : SynthesisConfig) : Idiom :=
  match config.strategy with
  | .tree => arrayIdiom config.functions
  | .flat => fileIdiom config.functions

/-- The wording of the programs of a configuration. -/
def wording (config : SynthesisConfig) : Wording :=
  match config.strategy with
  | .tree => arrayWording
  | .flat => fileWording

/-- The functions of the program of a configuration, from the start of a source. -/
def assembly (config : SynthesisConfig) (g : Source) : Except SynthesisError Assembly :=
  match config.strategy with
  | .tree => (outcome (assemble arrayBacked config) (g, ())).1
  | .flat => (outcome (assemble fileBacked config) (g, {})).1

variable {config : SynthesisConfig}

/-- Both idioms name their roles. -/
theorem idiom_namesRoles (config : SynthesisConfig) : config.idiom.NamesRoles := by
  unfold idiom
  split
  · exact ArrayBacked.idiom_namesRoles _
  · exact FileBacked.idiom_namesRoles _

/-- Where the names of an idiom are declared, it is worded as its configuration says. -/
theorem idiom_wordedAs {r : Registry} (hr : Ground r config.idiom config.functions) :
    config.idiom.WordedAs config.wording r := by
  cases hs : config.strategy with
  | tree =>
    simp only [idiom, wording, hs] at hr ⊢
    exact ArrayBacked.wordedAs hr
  | flat =>
    simp only [idiom, wording, hs] at hr ⊢
    exact FileBacked.wordedAs hr

/-- The functions of a program come about, and they are made from a sketch in the idiom of the configuration. -/
theorem assembly_madeFrom (config : SynthesisConfig) (g : Source) (pos : 0 < config.functions)
    (fits : config.functions * config.functions < 2 ^ 63) :
    ∃ a sketch, config.assembly g = .ok a ∧ a.MadeFrom config.idiom config.functions config.budget sketch ∧
      sketch.Bounded config.functions := by
  unfold assembly idiom
  cases config.strategy with
  | tree =>
    obtain ⟨a, after, hact, sketch, hmade, hbounded⟩ := ArrayBacked.assembled config (g, ()) pos fits
    exact ⟨a, sketch, outcome_of_eq hact, hmade, hbounded⟩
  | flat =>
    obtain ⟨a, after, hact, sketch, hmade, hbounded, -⟩ := FileBacked.assembled config (g, {}) pos fits
    exact ⟨a, sketch, outcome_of_eq hact, hmade, hbounded⟩

/-- The same without the sketch, for what holds of any program in the idiom. -/
theorem assembly_madeIn (config : SynthesisConfig) (g : Source) (pos : 0 < config.functions)
    (fits : config.functions * config.functions < 2 ^ 63) :
    ∃ a, config.assembly g = .ok a ∧ a.MadeIn config.idiom config.functions config.budget := by
  obtain ⟨a, sketch, ha, hmade, -⟩ := config.assembly_madeFrom g pos fits
  exact ⟨a, ha, Assembly.madeIn_iff.mpr ⟨sketch, hmade⟩⟩

end SynthesisConfig

/-- A run that has assembled a program, and whose functions all have bodies, hands over the program and its files. -/
theorem synthesize_eq {σ : Type} {s : Strategy σ} {config : SynthesisConfig} {before after : Source × σ} {a : Assembly}
    {texts : List String} (ha : assemble s config before = .ok a after)
    (ht : sections a.registry a.tests a.helpers a.main = .ok texts) :
    synthesize s config before =
      .ok { source := joinSections texts, auxFiles := (s.takeFiles after.2).1 } (after.1, (s.takeFiles after.2).2) :=
  synthesize_eq_ok.mpr ⟨a, after, texts, ha, ht, rfl, rfl⟩

/-- The program that is handed over is what the assembly is rendered to, whatever files come with it. -/
theorem synthesize_of_assemble {σ : Type} {s : Strategy σ} {config : SynthesisConfig} {before : Source × σ}
    {a : Assembly} {texts : List String} (ha : (outcome (assemble s config) before).1 = .ok a)
    (ht : sections a.registry a.tests a.helpers a.main = .ok texts) :
    ∃ p, (outcome (synthesize s config) before).1 = .ok p ∧ p.source = joinSections texts := by
  obtain ⟨after, hact⟩ := outcome_eq_ok.mp ha
  exact ⟨_, outcome_of_eq (synthesize_eq hact ht), rfl⟩

/-- A program is the text of its functions. -/
theorem generate_of_assembly {config : SynthesisConfig} {g : Source} {a : Assembly} {texts : List String}
    (ha : config.assembly g = .ok a) (ht : sections a.registry a.tests a.helpers a.main = .ok texts) :
    ∃ p, generate config g = .ok p ∧ p.source = joinSections texts := by
  unfold SynthesisConfig.assembly at ha
  unfold generate
  cases hs : config.strategy with
  | tree => rw [hs] at ha; exact synthesize_of_assemble ha ht
  | flat => rw [hs] at ha; exact synthesize_of_assemble ha ht

/-- **Every program that is asked for comes about, and its text is that of a sketch**, whose numbers are all in their
ranges. -/
theorem generate_sketch (config : SynthesisConfig) (g : Source) (pos : 0 < config.functions)
    (fits : config.functions * config.functions < 2 ^ 63) :
    ∃ (s : Sketch) (p : Program), s.Fits config.functions config.idiom.places config.budget ∧
      generate config g = .ok p ∧ p.source = joinSections ((s.sections config.wording config.functions).map textOf) := by
  obtain ⟨a, ha, hmade⟩ := config.assembly_madeIn g pos fits
  obtain ⟨s, hs, ht⟩ := hmade.sections_eq config.idiom_namesRoles (SynthesisConfig.idiom_wordedAs hmade.ground)
  obtain ⟨p, hp, hsource⟩ := generate_of_assembly ha ht
  exact ⟨s, p, hs, hp, hsource⟩

end SeedCorpus
