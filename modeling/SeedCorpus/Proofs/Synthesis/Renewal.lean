/-
  One strategy object for many programs.

  The strategy that works on files keeps notes from one run to the next: the helpers that it declared, and the files that it
  has filed.  The number of random draws depends on what is filed.  Nevertheless no run can tell what was before it.

  1. **Helpers**: they are declared anew before any function is drawn.  No declaration looks at the notes (`Blind`), up to
     the one that remembers the helpers, and that one makes the same of all notes with the same files (`Renews`).  So two
     runs that start from such notes are the same from there on (`FileBacked.synthesize_congr`).

  2. **Files**: a run hands over all that are filed, and it always comes to that.  So notes are clean when a run begins, and
     they are clean again when it ends (`Strategy.Forgets`).

  3. **Runs**: by induction, any number of runs is the same from all clean notes (`Strategy.Forgets.many`), and those of a new
     strategy object are clean.
-/
import SeedCorpus.Proofs.Files.Inputs
import SeedCorpus.Proofs.Synthesis.Deferring

namespace SeedCorpus

open SeedCorpus.Random (Source)

variable {σ α β : Type}

/-! ## Acts that do not look at the notes

Two notions, one for each half of the declarations.  A blind act neither reads the notes nor changes them, so that it can be
carried out from any others; the one act that changes them makes the same of all notes with the same files.  A sequence of
blind acts with that one in it then does so as a whole. -/

/-- What an act comes to it comes to from any notes, and it leaves them as they are. -/
def Blind (act : Declaring σ α) : Prop := ∀ notes, Follows (fun _ => notes) act act

namespace Blind

/-- An answer does not depend on the notes. -/
theorem orFail (answer : Except SynthesisError α) : Blind (σ := σ) (orFail answer) := fun _ => .orFail answer

/-- The registry is the other half of the state. -/
theorem registry : Blind (σ := σ) Declaring.registry := by
  rintro notes r t a r' t' h
  cases h
  rfl

theorem type (key : String) : Blind (σ := σ) (Declaring.type key) := fun _ => .type key

theorem newVariable (t : ValueType) (name : String) : Blind (σ := σ) (Declaring.newVariable t name) := fun _ => .declare _

theorem newFunction (t : ValueType) (name : String) (params : List VarId) :
    Blind (σ := σ) (Declaring.newFunction t name params) := fun _ => .declare _

theorem setBody (id : FuncId) (body : Block) : Blind (σ := σ) (Declaring.setBody id body) := fun _ => .declare _

theorem mapM {act : β → Declaring σ α} (h : ∀ b, Blind (act b)) (l : List β) : Blind (l.mapM act) := fun notes =>
  .mapM (fun b => h b notes) l

/-- The notes are the same behind the act. -/
theorem notes_eq {act : Declaring σ α} (h : Blind act) {r r' : Registry} {t t' : σ} {a : α}
    (hact : act (r, t) = .ok a (r', t')) : t' = t := by
  -- from the same notes the act comes to what it came to, and leaves them
  have hsame : act (r, t) = .ok a (r', t) := h t r t a r' t' hact
  rw [hact] at hsame
  exact congrArg Prod.snd (EStateM.Result.ok.inj hsame).2

end Blind

namespace FileBacked

variable {size : Nat} {t u : Notes}

/-- What an act comes to it comes to from all notes with the same files, and it makes the same of all of them. -/
def Renews (act : Declaring Notes α) : Prop :=
  ∀ r t u a after, t.inputs = u.inputs → act (r, t) = .ok a after → act (r, u) = .ok a after

namespace Renews

/-- Behind acts that do not look. -/
theorem behind {act : Declaring Notes α} {next : α → Declaring Notes β} (h : Blind act) (hn : ∀ a, Renews (next a)) :
    Renews (act >>= next) := by
  intro r t u b last hsame hb
  obtain ⟨a, ⟨r', t'⟩, hact, hnext⟩ := bind_eq_ok.mp hb
  -- the act in front has left the notes, so that those behind it start from notes with the same files
  obtain rfl := h.notes_eq hact
  exact bind_eq_ok.mpr ⟨a, (r', u), h u r t' a r' t' hact, hn a r' t' u b last hsame hnext⟩

/-- In front of other acts, which then start from the same notes. -/
theorem before {act : Declaring Notes α} (h : Renews act) (next : α → Declaring Notes β) : Renews (act >>= next) := by
  intro r t u b last hsame hb
  obtain ⟨a, mid, hact, hnext⟩ := bind_eq_ok.mp hb
  exact bind_eq_ok.mpr ⟨a, mid, h r t u a mid hsame hact, hnext⟩

/-- The state may be read if nothing is made of it. -/
theorem read {next : Registry × Notes → Declaring Notes β} {rest : Declaring Notes β} (h : ∀ state, next state = rest)
    (hr : Renews rest) : Renews (get >>= next) := by
  intro r t u b last hsame hb
  have hnext : next (r, t) (r, t) = .ok b last := hb
  rw [h] at hnext
  show next (r, u) (r, u) = .ok b last
  rw [h]
  exact hr r t u b last hsame hnext

/-- A change that makes the same of all notes with the same files. -/
theorem note {change : Notes → Notes} (h : ∀ t u : Notes, t.inputs = u.inputs → change t = change u) :
    Renews (Declaring.note change) := by
  rintro r t u a after hsame hact
  cases hact
  show EStateM.Result.ok () (r, change u) = EStateM.Result.ok () (r, change t)
  rw [h t u hsame]

end Renews

/-- The helpers that are remembered are those just declared. -/
theorem declareHelpers_renews : Renews declareHelpers :=
  .behind (.type _) fun _ => .behind (.type _) fun _ => .behind (.type _) fun _ => .behind .registry fun _ =>
    .behind (.orFail _) fun _ => .behind (.newVariable _ _) fun _ => .behind (.newVariable _ _) fun _ =>
    .behind (.newVariable _ _) fun _ => .behind (.newFunction _ _ _) fun _ => .behind .registry fun _ =>
    .behind (.setBody _ _) fun _ => .behind (.newFunction _ _ _) fun _ => .behind .registry fun _ =>
    .behind (.setBody _ _) fun _ => (Renews.note fun t u h => by rw [h]).before _

/-- All declarations come to the same, from notes with the same files. -/
theorem declareAll_congr (size : Nat) (h : t.inputs = u.inputs) :
    declareAll fileBacked size (Registry.withCTypes, t) = declareAll fileBacked size (Registry.withCTypes, u) := by
  -- one of the two is known to succeed, and what it has come to is carried over to the other, act by act
  obtain ⟨outline, after, hact, -⟩ := declares size t
  refine hact.trans (Eq.symm ?_)
  obtain ⟨roles, mid, hroles, hrest⟩ := bind_eq_ok.mp hact
  -- the roles are declared on the same registry by both
  cases (roles_eq size t).symm.trans hroles
  refine bind_eq_ok.mpr ⟨_, _, roles_eq size u, ?_⟩
  refine Renews.behind (.type _) (fun int => ?_) _ _ _ _ _ h hrest
  refine Renews.read (fun _ => rfl) (.behind (.mapM (fun k => .newFunction _ _ _) _) fun tests => ?_)
  exact declareHelpers_renews.before _

end FileBacked

/-! ## Two runs

A run looks at the notes first when it declares its helpers, and they are the same from then on.  So it is enough to show
that both runs have reached one state there; whatever comes later is the same function of it. -/

/-- Acts in sequence come to the same if the first one does. -/
theorem bind_congr_state {S : Type} {act : EStateM SynthesisError S α} {next : α → EStateM SynthesisError S β} {s s' : S}
    (h : act s = act s') : (act >>= next) s = (act >>= next) s' := by
  show EStateM.bind act next s = EStateM.bind act next s'
  rw [EStateM.bind, EStateM.bind, h]

/-- Runs from notes with the same files are the same. -/
theorem FileBacked.synthesize_congr {config : SynthesisConfig} (pos : 0 < config.functions) (g : Source) {t u : Notes}
    (h : t.inputs = u.inputs) : synthesize fileBacked config (g, t) = synthesize fileBacked config (g, u) := by
  unfold synthesize
  refine bind_congr_state ?_
  unfold assemble
  rw [if_neg (Nat.ne_of_gt pos)]
  -- the source is not touched by declarations, and the notes are made the same
  have hdeclared : onFreshRegistry (declareAll fileBacked config.functions) (g, t) =
      onFreshRegistry (declareAll fileBacked config.functions) (g, u) := by
    rw [onFreshRegistry, onFreshRegistry, declareAll_congr config.functions h]
  exact bind_congr_state hdeclared

/-! ## Runs in a row

For several runs one needs that each leaves the notes as clean as it found them, besides that it does not depend on them.
Both are in one notion, with the program and the source chosen before the notes are: that is what makes them independent. -/

/-- A run that starts from clean notes leaves clean notes, and otherwise it does not depend on the notes: from all clean ones
it comes to the same program and leaves the same source. -/
def Strategy.Forgets (s : Strategy σ) (config : SynthesisConfig) (clean : σ → Prop) : Prop :=
  ∀ g, ∃ p g', ∀ t, clean t → ∃ t', clean t' ∧ synthesize s config (g, t) = .ok p (g', t')

section Runs

variable {s : Strategy σ} {config : SynthesisConfig} {clean : σ → Prop}

/-- So it is with several runs. -/
theorem Strategy.Forgets.many (h : s.Forgets config clean) (count : Nat) : ∀ g, ∃ ps g', ∀ t, clean t →
    ∃ t', clean t' ∧ synthesizeMany s config (g, t) count = (ps, (g', t')) := by
  induction count with
  | zero => exact fun g => ⟨[], g, fun t ht => ⟨t, ht, rfl⟩⟩
  | succ count ih =>
    intro g
    -- program and source of the first run do not depend on the notes, and neither do those of the others
    obtain ⟨p, mid, hfirst⟩ := h g
    obtain ⟨ps, last, hrest⟩ := ih mid
    refine ⟨.ok p :: ps, last, fun t ht => ?_⟩
    obtain ⟨u, hu, hrun⟩ := hfirst t ht
    obtain ⟨v, hv, hruns⟩ := hrest u hu
    refine ⟨v, hv, ?_⟩
    rw [synthesizeMany, outcome, hrun]
    dsimp only
    rw [hruns]

/-- The array strategy has nothing to forget: its notes are always the same. -/
theorem arrayBacked_forgets (config : SynthesisConfig) (pos : 0 < config.functions)
    (fits : config.functions * config.functions < 2 ^ 63) : arrayBacked.Forgets config fun _ => True := by
  intro g
  obtain ⟨a, after, hact, sketch, hmade, -⟩ := ArrayBacked.assembled config (g, ()) pos fits
  have hsections := hmade.sections_eq (ArrayBacked.idiom_namesRoles _) (ArrayBacked.wordedAs hmade.ground)
  exact ⟨_, _, fun _ _ => ⟨(), trivial, synthesize_eq hact hsections⟩⟩

/-- The file strategy forgets its helpers at once and hands over its files at the end. -/
theorem fileBacked_forgets (config : SynthesisConfig) (pos : 0 < config.functions)
    (fits : config.functions * config.functions < 2 ^ 63) : fileBacked.Forgets config fun t => t.inputs = [] := by
  intro g
  obtain ⟨a, sketch, inputs, p, after, -, hrun, hnone, -⟩ := FileBacked.synthesized config (g, {}) pos fits
  refine ⟨p, after.1, fun t ht => ⟨after.2, hnone, ?_⟩⟩
  -- clean notes may still name helpers of an earlier run, but they have the same files as new notes: none
  have hsame : t.inputs = ({} : FileBacked.Notes).inputs := ht
  rw [FileBacked.synthesize_congr pos g hsame, hrun]

end Runs

/-! ## Synthesizers

A synthesizer is an object with a state that lives on.  As a function it is a strategy with notes, and a new object is one
with the notes that it starts from. -/

/-- The outcomes of several runs with one new strategy object, and the source that they leave. -/
def Strategy.runs (s : Strategy σ) (config : SynthesisConfig) (new : σ) (g : Source) (count : Nat) :
    List (Except SynthesisError Program) × Source :=
  let (outs, g, _) := synthesizeMany s config (g, new) count
  (outs, g)

/-- The outcomes of several runs of a configuration with one strategy object, from the start of a source, and the source that
they leave. -/
def runs (config : SynthesisConfig) (g : Source) (count : Nat) : List (Except SynthesisError Program) × Source :=
  match config.strategy with
  | .tree => arrayBacked.runs config () g count
  | .flat => fileBacked.runs config {} g count

/-- A run in the midst of others is that of a new strategy object. -/
theorem Strategy.Forgets.runs_last {s : Strategy σ} {config : SynthesisConfig} {clean : σ → Prop} {new : σ}
    (h : s.Forgets config clean) (hnew : clean new) (g : Source) {r count : Nat} (hlt : r < count) :
    ∃ p, (s.runs config new g count).1[r]? = some (.ok p) ∧
      s.runs config new (s.runs config new g r).2 1 = ([.ok p], (s.runs config new g (r + 1)).2) := by
  -- the notes that the runs before it leave are as clean as the new ones
  obtain ⟨outs, mid, hbefore⟩ := h.many r g
  obtain ⟨t, ht, hbefore⟩ := hbefore new hnew
  obtain ⟨p, last, hrun⟩ := h mid
  obtain ⟨u, -, hold⟩ := hrun t ht
  obtain ⟨v, -, hfresh⟩ := hrun new hnew
  -- the one half looks at the run from within the row, the other at the row of one run from the source that it found
  refine ⟨p, ?_, ?_⟩
  · refine (synthesizeMany_of_lt r (g, new) hlt).trans ?_
    rw [hbefore, outcome, hold]
  · have hmid : (s.runs config new g r).2 = mid := congrArg (·.2.1) hbefore
    have hlast : (s.runs config new g (r + 1)).2 = last := by
      refine (congrArg Prod.fst (synthesizeMany_succ r (g, new))).trans ?_
      rw [hbefore, outcome, hold]
    rw [hmid, hlast, Strategy.runs, synthesizeMany, outcome, hfresh]
    rfl

/-- **No run can tell what was before it.**  The program of a run in the midst of others is the one that a new strategy object
makes from the source as the run found it, with the same files, and both leave the same source. -/
theorem runs_renewed (config : SynthesisConfig) (g : Source) (pos : 0 < config.functions)
    (fits : config.functions * config.functions < 2 ^ 63) {r count : Nat} (hlt : r < count) :
    ∃ p, (runs config g count).1[r]? = some (.ok p) ∧
      runs config (runs config g r).2 1 = ([.ok p], (runs config g (r + 1)).2) := by
  unfold runs
  cases config.strategy with
  | tree => exact (arrayBacked_forgets config pos fits).runs_last trivial g hlt
  | flat => exact (fileBacked_forgets config pos fits).runs_last rfl g hlt

/-- Two functions of four statements, which read and write files. -/
def twoInARow : SynthesisConfig := { strategy := .flat, functions := 2, statements := some 4 }

/-- The third run of three, of a strategy that works on files. -/
theorem thirdRun_renewed : 0 < twoInARow.functions ∧ twoInARow.functions * twoInARow.functions < 2 ^ 63 ∧ 2 < 3 ∧
    ∃ p, (runs twoInARow (.ofSeed 1) 3).1[2]? = some (.ok p) ∧
      runs twoInARow (runs twoInARow (.ofSeed 1) 2).2 1 = ([.ok p], (runs twoInARow (.ofSeed 1) 3).2) :=
  ⟨by decide, by decide, by decide, runs_renewed twoInARow (.ofSeed 1) (by decide) (by decide) (by decide)⟩

end SeedCorpus
