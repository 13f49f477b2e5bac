/-
  What a strategy remembers stays right.

  A strategy keeps notes from one question to the next and from one run to the next, and a run that fails keeps them too.
  So what is said of notes has to hold whatever an act comes to, a result or a refusal (`Upholds`).

  1. Acts in sequence uphold what each of them upholds (`Upholds.bind`).  Draws and declarations do not touch the notes.
  2. If the answers of a strategy uphold something (`Strategy.Remembers`), then so does every part of a run, and so do
     several runs in a row; and the files of each program are those of notes of which it holds (`synthesize_upholds`,
     `synthesizeMany_upholds`).

  This is the third way to follow a run, beside `Gives` and the inversions.  `Gives` speaks of runs that succeed and says
  what they come to; here nothing is said of the result, and so there is nothing to assume either: no size, no range, no
  ground. The lemmas have the shape of the definitions, one for each, and each is a chain of `bind`s in the order of the
  source.
-/
import SeedCorpus.Proofs.Synthesis.Deferring

namespace SeedCorpus

open SeedCorpus.Random (Source)

variable {σ X α β : Type}

/-! ## Acts

The state is a pair, and only its second half is meant.  The first half is a registry while declarations are made and a
source of random numbers while draws are made, so that both kinds of acts are covered by one definition. -/

/-- Whatever the act comes to, the notes are still kept. -/
def Upholds (keeps : σ → Prop) (act : EStateM SynthesisError (X × σ) α) : Prop :=
  ∀ x notes, keeps notes → keeps (outcome act (x, notes)).2.2

/-- Acts in sequence come to what the second one comes to, unless the first one fails. -/
theorem outcome_bind {S : Type} (act : EStateM SynthesisError S α) (next : α → EStateM SynthesisError S β) (before : S) :
    outcome (act >>= next) before = match act before with
      | .ok a mid => outcome (next a) mid
      | .error e mid => (.error e, mid) := by
  -- what is kept in a failure is the state at which it happened
  show outcome (EStateM.bind act next) before = _
  unfold outcome EStateM.bind
  cases act before <;> rfl

section Upholds

variable {keeps : σ → Prop} {act : EStateM SynthesisError (X × σ) α} {next : α → EStateM SynthesisError (X × σ) β}

theorem Upholds.pure (a : α) : Upholds (X := X) keeps (pure a) := fun _ _ hk => hk

theorem Upholds.throw (e : SynthesisError) : Upholds (X := X) (α := α) keeps (throw e) := fun _ _ hk => hk

/-- The notes between two acts are as they should be, so that the second act starts well; and if the first one fails they are
what is left. -/
theorem Upholds.bind (h : Upholds keeps act) (hn : ∀ a, Upholds keeps (next a)) : Upholds keeps (act >>= next) := by
  intro x notes hk
  have hmid := h x notes hk
  rw [outcome_bind]
  unfold outcome at hmid
  -- the match decides whether the second act comes to be carried out at all
  cases hact : act (x, notes) with
  | ok a mid =>
    rw [hact] at hmid
    exact hn a mid.1 mid.2 hmid
  | error e mid =>
    rw [hact] at hmid
    exact hmid

theorem Upholds.orFail (answer : Except SynthesisError α) : Upholds (X := X) keeps (orFail answer) := by
  cases answer with
  | ok a => exact .pure a
  | error e => exact .throw e

/-- An act for each item of a list upholds what the act upholds. -/
theorem Upholds.mapM {act : β → EStateM SynthesisError (X × σ) α} (h : ∀ b, Upholds keeps (act b)) (l : List β) :
    Upholds keeps (l.mapM act) := by
  induction l with
  | nil => exact .pure []
  | cons b l ih =>
    rw [List.mapM_cons]
    exact (h b).bind fun a => ih.bind fun rest => .pure _

/-- The state as it stands, in front of other acts. -/
theorem Upholds.get_bind {next : X × σ → EStateM SynthesisError (X × σ) β} (h : ∀ state, Upholds keeps (next state)) :
    Upholds keeps (get >>= next) := fun x notes hk => h (x, notes) x notes hk

/-! ### Declarations -/

theorem Upholds.registry : Upholds keeps (Declaring.registry (σ := σ)) := fun _ _ hk => hk

theorem Upholds.declare (act : Registry → α × Registry) : Upholds keeps (Declaring.declare (σ := σ) act) := fun _ _ hk => hk

theorem Upholds.type (key : String) : Upholds keeps (Declaring.type (σ := σ) key) := Upholds.registry.bind fun _ => .orFail _

theorem Upholds.noteDeclaring {change : σ → σ} (h : ∀ notes, keeps notes → keeps (change notes)) :
    Upholds keeps (Declaring.note change) := fun _ notes hk => h notes hk

/-- The declaration of the common roles does not look at the notes. -/
theorem Upholds.declareIntRoles : Upholds keeps (declareIntRoles (σ := σ)) := by
  rw [declareIntRoles_eq]
  exact (Upholds.type _).bind fun _ => (Upholds.declare _).bind fun _ => (Upholds.declare _).bind fun _ =>
    (Upholds.declare _).bind fun _ => .pure _

/-! ### Draws -/

theorem Upholds.draw (act : Source → α × Source) : Upholds keeps (Drawing.draw (σ := σ) act) := fun _ _ hk => hk

/-- A draw takes from the source and leaves the notes, and so does a refusal to draw. -/
theorem Upholds.below (n : Nat) : Upholds keeps (Drawing.below (σ := σ) n) := by
  unfold Drawing.below
  split
  · exact .throw _
  · exact .draw _

theorem Upholds.upTo (bound : Int) : Upholds keeps (Drawing.upTo (σ := σ) bound) := by
  unfold Drawing.upTo
  split
  · exact .throw _
  · exact .draw _

/-- Several draws leave the notes as one draw does. -/
theorem Upholds.manyUpTo (bound : Int) (count : Nat) : Upholds keeps (Drawing.manyUpTo (σ := σ) bound count) := by
  induction count with
  | zero => exact .pure _
  | succ count ih => exact (Upholds.upTo bound).bind fun n => ih.bind fun rest => .pure _

/-- The notes as they stand, in front of other acts. -/
theorem Upholds.notes_bind {next : σ → Drawing σ β}
    (h : ∀ g notes, keeps notes → keeps (outcome (next notes) (g, notes)).2.2) : Upholds keeps (Drawing.notes >>= next) :=
  fun g notes hk => h g notes hk

end Upholds

/-! ## Runs

From here on each part of a run has a lemma of its own, from calls to whole programs, and the strategy comes in only through
what it is assumed to uphold. -/

/-- The answers of a strategy uphold what is said of its notes. -/
structure Strategy.Remembers (s : Strategy σ) (keeps : σ → Prop) : Prop where
  /-- The roles. -/
  roles : Upholds keeps s.roles
  /-- The helpers. -/
  helpers : Upholds keeps s.helpers
  /-- What reads. -/
  read : ∀ r roles size, Upholds keeps (s.read r roles size)
  /-- What writes. -/
  write : ∀ r roles call size, Upholds keeps (s.write r roles call size)
  /-- What stands in front of the calls in `main`. -/
  prelude : ∀ r roles size, Upholds keeps (s.prelude r roles size)
  /-- Handing the files over. -/
  takeFiles : ∀ notes, keeps notes → keeps (s.takeFiles notes).2

section Runs

variable {s : Strategy σ} {keeps : σ → Prop} {config : SynthesisConfig}

theorem declareAll_upholds (hs : s.Remembers keeps) (size : Nat) : Upholds keeps (declareAll s size) := by
  -- the strategy declares at both ends; in between generated functions are announced
  unfold declareAll
  refine hs.roles.bind fun roles => (Upholds.type "int").bind fun int => .get_bind fun state => ?_
  exact (Upholds.mapM (fun k => .declare _) _).bind fun tests => hs.helpers.bind fun helpers => .pure _

/-- A call is drawn, and the strategy is asked for arguments, which takes no act. -/
theorem drawCall_upholds (s : Strategy σ) (r : Registry) (f : Frame) (adjusted : Expr) :
    Upholds keeps (drawCall s r f adjusted) :=
  (Upholds.below f.size).bind fun _ => .notes_bind fun g notes hk => Upholds.orFail _ g notes hk

/-- A statement of any kind upholds what the answers uphold: three kinds only draw a call, and two ask the strategy. -/
theorem drawOfKind_upholds (hs : s.Remembers keeps) (r : Registry) (f : Frame) (int : ValueType) (ops : Operators)
    (kind : StatementKind) : Upholds keeps (drawOfKind s r f int ops kind) := by
  cases kind with
  | guardedCall => exact (drawCall_upholds s r f _).bind fun call => .pure _
  | countedLoop => exact (drawCall_upholds s r f _).bind fun call => .pure _
  | conditionedLoop =>
    refine (drawCall_upholds s r f _).bind fun call => .notes_bind fun g notes hk => ?_
    exact (Upholds.orFail _).bind (fun condition => .pure _) g notes hk
  | read => exact hs.read r f.roles f.size
  | write => exact (drawCall_upholds s r f _).bind fun call => hs.write r f.roles call f.size

/-- So do statements in a row. -/
theorem drawStatements_upholds (hs : s.Remembers keeps) (r : Registry) (f : Frame) (int : ValueType) (ops : Operators)
    (count : Nat) : Upholds keeps (drawStatements s r f int ops count) := by
  induction count with
  | zero => exact .pure _
  | succ count ih =>
    -- the kind is drawn before each statement
    have hkind : Upholds keeps (StatementKind.draw (σ := σ)) := (Upholds.below _).bind fun n => .pure _
    exact hkind.bind fun kind => (drawOfKind_upholds hs r f int ops kind).bind fun st => ih.bind fun rest => .pure _

theorem drawBody_upholds (hs : s.Remembers keeps) (r : Registry) (f : Frame) (number budget : Nat) :
    Upholds keeps (drawBody s r f number budget) :=
  (Upholds.orFail _).bind fun int => (Upholds.orFail _).bind fun ops =>
    (drawStatements_upholds hs r f int ops budget).bind fun _ => .pure _

/-- Bodies are drawn one after the other; the registry changes on the way, but it is no part of the notes. -/
theorem drawBodies_upholds (hs : s.Remembers keeps) (f : Frame) (budget : Nat) (list : List (Nat × FuncId)) : ∀ r,
    Upholds keeps (drawBodies s f budget r list) := by
  induction list with
  | nil => exact fun r => .pure r
  | cons e list ih => exact fun r => (drawBody_upholds hs r f e.1 budget).bind fun body => ih (r.setBody e.2 body)

theorem drawStarts_upholds (s : Strategy σ) (r : Registry) (f : Frame) (plus : Operation) (count : Nat) :
    Upholds keeps (drawStarts s r f plus count) := by
  induction count with
  | zero => exact .pure _
  | succ count ih =>
    exact (Upholds.upTo _).bind fun start => (drawCall_upholds s r f _).bind fun call => ih.bind fun rest => .pure _

/-- What `main` does is drawn last, with what the strategy puts in front. -/
theorem drawMain_upholds (hs : s.Remembers keeps) (r : Registry) (f : Frame) : Upholds keeps (drawMain s r f) := by
  refine (Upholds.orFail _).bind fun int => (Upholds.orFail _).bind fun plus => ?_
  exact (hs.prelude r f.roles f.size).bind fun prelude => (drawStarts_upholds s r f plus f.size).bind fun starts => .pure _

/-- What is declared on a registry of its own leaves the notes as it does on any other. -/
theorem Upholds.onFreshRegistry {act : Declaring σ α} (h : Upholds keeps act) : Upholds keeps (onFreshRegistry act) := by
  intro g notes hk
  have hfresh := h Registry.withCTypes notes hk
  unfold outcome at hfresh ⊢
  unfold SeedCorpus.onFreshRegistry
  dsimp only
  cases hact : act (Registry.withCTypes, notes) with
  | ok a after =>
    rw [hact] at hfresh
    exact hfresh
  | error e after =>
    rw [hact] at hfresh
    exact hfresh

/-- A program is drawn in full or in part, and what is said of the notes still holds. -/
theorem assemble_upholds (hs : s.Remembers keeps) (config : SynthesisConfig) : Upholds keeps (assemble s config) := by
  unfold assemble
  -- no functions at all is refused before anything is done
  split
  · exact .throw _
  · refine (declareAll_upholds hs config.functions).onFreshRegistry.bind fun outline => ?_
    refine (drawBodies_upholds hs _ _ _ _).bind fun r => (drawMain_upholds hs _ _).bind fun body => ?_
    exact (Upholds.orFail _).bind fun int => .pure _

/-- A run upholds what is said of the notes; and if it comes to a program, then the files of the program are those of notes of
which it holds. -/
theorem synthesize_upholds (hs : s.Remembers keeps) (config : SynthesisConfig) :
    Upholds keeps (synthesize s config) ∧ ∀ g notes p, keeps notes → (outcome (synthesize s config) (g, notes)).1 = .ok p →
      ∃ notes', keeps notes' ∧ p.auxFiles = (s.takeFiles notes').1 := by
  -- the first half follows the acts; the second half needs the notes at the moment when the files are taken, which are those
  -- that the assembly has left
  constructor
  · refine (assemble_upholds hs config).bind fun a => (Upholds.orFail _).bind fun texts => ?_
    exact Upholds.bind (fun g notes hk => hs.takeFiles notes hk) fun files => .pure _
  · intro g notes p hk hp
    have hmid := assemble_upholds hs config g notes hk
    obtain ⟨last, hrun⟩ := outcome_eq_ok.mp hp
    obtain ⟨a, mid, texts, hact, -, rfl, -⟩ := synthesize_eq_ok.mp hrun
    rw [outcome, hact] at hmid
    exact ⟨mid.2, hmid, rfl⟩

/-- So do several runs, whether or not some of them fail. -/
theorem synthesizeMany_upholds (hs : s.Remembers keeps) (config : SynthesisConfig) (count : Nat) : ∀ {state : Source × σ},
    keeps state.2 → ∀ p, .ok p ∈ (synthesizeMany s config state count).1 →
      ∃ notes, keeps notes ∧ p.auxFiles = (s.takeFiles notes).1 := by
  induction count with
  -- by induction on how many runs are left: the next run starts from the notes of the one before, failed or not
  | zero =>
    intro state _ p hp
    cases hp
  | succ count ih =>
    intro state hk p hp
    obtain ⟨hkept, hfiles⟩ := synthesize_upholds hs config
    rcases List.mem_cons.mp hp with hfirst | hrest
    · exact hfiles state.1 state.2 p hk hfirst.symm
    · exact ih (hkept state.1 state.2 hk) p hrest

end Runs

end SeedCorpus
