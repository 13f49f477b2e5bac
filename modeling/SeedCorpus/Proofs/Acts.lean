/-
  Acts that succeed.

  `Gives act before post` says that an act started in a state comes to a result, and what holds of the result and of the state
  after it.  Acts in sequence are followed one by one (`Gives.bind`), so a program of draws is treated in the order in
  which it is written.

  The other way round, what acts in sequence have come to is taken apart again (`bind_eq_ok`, `orFail_eq_ok`).

  The draws themselves succeed whenever the range is not empty and not wider than a draw (`below_gives`, `upTo_gives`,
  `manyUpTo_gives`); they leave the notes of a strategy alone.

  The two directions are for two kinds of theorem.  `Gives` is total: it is what one needs to show that a run comes to a program
  at all.  The inversions are partial: they start from a run that came to a result, of which nothing was known before, and are
  what one needs of strategies that may as well fail.
-/
import SeedCorpus.Synthesis.Strategy

namespace SeedCorpus

open SeedCorpus.Random (Source)

/-- Started in the state `before`, the act comes to a result, and `post` holds of the result and the state after it. -/
def Gives {S α : Type} (act : EStateM SynthesisError S α) (before : S) (post : α → S → Prop) : Prop :=
  ∃ a after, act before = .ok a after ∧ post a after

section Sequence

variable {S α β : Type} {act : EStateM SynthesisError S α} {before : S} {post mid : α → S → Prop}

/-- An act that only hands over a result gives what holds of it already. -/
theorem Gives.pure {a : α} (h : post a before) : Gives (pure a) before post := ⟨a, before, rfl, h⟩

/-- Acts in sequence. -/
theorem Gives.bind {next : α → EStateM SynthesisError S β} {post : β → S → Prop} (h : Gives act before mid)
    (hn : ∀ a after, mid a after → Gives (next a) after post) : Gives (act >>= next) before post := by
  obtain ⟨a, after, hact, hmid⟩ := h
  obtain ⟨b, last, hnext, hpost⟩ := hn a after hmid
  refine ⟨b, last, ?_, hpost⟩
  -- a sequence is a match on what its first act has come to, and that is known here
  show EStateM.bind act next before = _
  rw [EStateM.bind, hact]
  exact hnext

/-- What holds of a result may be weakened. -/
theorem Gives.imp (h : Gives act before mid) (hp : ∀ a after, mid a after → post a after) : Gives act before post := by
  obtain ⟨a, after, hact, hmid⟩ := h
  exact ⟨a, after, hact, hp a after hmid⟩

/-- An act whose result is known, in front of other acts. -/
theorem Gives.bind_eq {a : α} {after : S} {next : α → EStateM SynthesisError S β} {post : β → S → Prop}
    (h : act before = .ok a after) (hn : Gives (next a) after post) : Gives (act >>= next) before post := by
  obtain ⟨b, last, hnext, hpost⟩ := hn
  refine ⟨b, last, ?_, hpost⟩
  show EStateM.bind act next before = _
  rw [EStateM.bind, h]
  exact hnext

/-- An answer that is no refusal. -/
theorem Gives.orFail {answer : Except SynthesisError α} {a : α} (h : answer = .ok a) (hp : post a before) :
    Gives (orFail answer) before post := by
  rw [h]
  exact ⟨a, before, rfl, hp⟩

/-- An answer that is no refusal, in front of other acts. -/
theorem Gives.orFail_bind {answer : Except SynthesisError α} {a : α} {next : α → EStateM SynthesisError S β}
    {post : β → S → Prop} (h : answer = .ok a) (hn : Gives (next a) before post) :
    Gives (SeedCorpus.orFail answer >>= next) before post := by
  rw [h]
  exact hn

end Sequence

/-! ## Acts that came to a result

Each of these takes one act off the front of a sequence.  Applied again and again they turn the success of a whole run into
what its parts have done, in order, with a name for every state in between. -/

section Results

variable {S α β : Type} {act : EStateM SynthesisError S α} {before after : S} {a : α}

/-- What acts in sequence have come to. -/
theorem bind_eq_ok {next : α → EStateM SynthesisError S β} {last : S} {b : β} :
    (act >>= next) before = .ok b last ↔ ∃ a mid, act before = .ok a mid ∧ next a mid = .ok b last := by
  show EStateM.bind act next before = _ ↔ _
  rw [EStateM.bind]
  cases act before with
  | ok a mid =>
    refine ⟨fun h => ⟨a, mid, rfl, h⟩, ?_⟩
    rintro ⟨_, _, heq, h⟩
    cases heq
    exact h
  | error e mid => exact ⟨nofun, fun ⟨_, _, heq, _⟩ => nomatch heq⟩

/-- Answers in sequence are no refusal if and only if none of them is one. -/
theorem except_bind_eq_ok {ε : Type} {x : Except ε α} {next : α → Except ε β} {b : β} :
    (x >>= next) = .ok b ↔ ∃ a, x = .ok a ∧ next a = .ok b := by
  cases x with
  | error e => simp [bind, Except.bind]
  | ok a => simp [bind, Except.bind]

/-- What an answer that may be a refusal has come to. -/
theorem orFail_eq_ok {answer : Except SynthesisError α} :
    orFail answer before = .ok a after ↔ answer = .ok a ∧ after = before := by
  -- an answer does not look at the state, so that there are just the two kinds of answer to go through
  cases answer with
  | ok b =>
    constructor
    · intro h
      cases h
      exact ⟨rfl, rfl⟩
    · rintro ⟨h, rfl⟩
      cases h
      rfl
  | error e => exact ⟨nofun, fun h => nomatch h.1⟩

/-- An outcome that is a result is one that the act has come to. -/
theorem outcome_eq_ok : (outcome act before).1 = .ok a ↔ ∃ after, act before = .ok a after := by
  unfold outcome
  cases act before with
  | ok b last =>
    constructor
    · intro h
      cases h
      exact ⟨last, rfl⟩
    · rintro ⟨_, h⟩
      cases h
      rfl
  | error e last => exact ⟨nofun, fun ⟨_, h⟩ => nomatch h⟩

/-- The outcome of an act that succeeds. -/
theorem outcome_of_eq (h : act before = .ok a after) : (outcome act before).1 = .ok a := outcome_eq_ok.mpr ⟨after, h⟩

end Results

namespace Drawing

variable {σ : Type} {before : Source × σ}

/-- The notes as they stand, in front of other acts. -/
theorem notes_bind {β : Type} {next : σ → Drawing σ β} {post : β → Source × σ → Prop}
    (h : Gives (next before.2) before post) : Gives (notes >>= next) before post := h

/-- A draw below a bound stays below it. -/
theorem below_gives {n : Nat} (pos : 0 < n) (fits : n ≤ 2 ^ 64) :
    Gives (below n) before fun k after => k < n ∧ after.2 = before.2 := by
  -- an empty range is the one refusal, and this one is not empty
  rw [below, if_neg (Nat.ne_of_gt pos)]
  refine ⟨_, _, rfl, ?_, rfl⟩
  show (before.1.below n).1 < n
  -- short and long draws are scaled alike; they differ in how much of the source they take
  unfold Source.below
  split
  · rename_i hn
    exact Source.fst_scale_lt _ _ _ pos (Nat.le_of_lt hn)
  · exact Source.fst_scale_lt _ _ _ pos fits

/-- A draw up to a bound stays within it. -/
theorem upTo_gives {bound : Nat} (fits : bound < 2 ^ 64) :
    Gives (upTo bound) before fun k after => k ≤ bound ∧ after.2 = before.2 := by
  have hneg : ¬ (bound : Int) < 0 := Int.not_lt.mpr (Int.natCast_nonneg bound)
  rw [upTo, if_neg hneg, Int.toNat_natCast]
  exact ⟨_, _, rfl, Nat.lt_succ_iff.mp (Source.fst_scale_lt _ _ _ (Nat.succ_pos bound) fits), rfl⟩

/-- Draws up to a bound stay within it. -/
theorem manyUpTo_gives {bound : Nat} (fits : bound < 2 ^ 64) (count : Nat) : ∀ {before : Source × σ},
    Gives (manyUpTo bound count) before fun values after =>
      values.length = count ∧ (∀ v ∈ values, v ≤ bound) ∧ after.2 = before.2 := by
  induction count with
  -- by induction on how many draws are left; the bound holds of each, the notes never change
  | zero => exact fun {before} => Gives.pure ⟨rfl, nofun, rfl⟩
  | succ count ih =>
    intro before
    refine (upTo_gives fits).bind fun k mid hk => ?_
    refine Gives.bind (ih : Gives (manyUpTo bound count) mid _) fun values after hv => ?_
    refine Gives.pure ⟨congrArg (· + 1) hv.1, fun v hmem => ?_, hv.2.2.trans hk.2⟩
    rcases List.mem_cons.mp hmem with rfl | hmem
    · exact hk.1
    · exact hv.2.1 v hmem

end Drawing

/-! ## Declarations

The roles are declared by three acts of one form.  Written out, they can be followed by the lemmas about one act. -/

/-- The variables of the roles are declared one after the other. -/
theorem declareIntRoles_eq {σ : Type} : declareIntRoles (σ := σ) = Declaring.type "int" >>= fun int =>
    Declaring.newVariable int "arg" >>= fun _ => Declaring.newVariable int "sum" >>= fun _ =>
    Declaring.newVariable int "i" >>= fun _ => pure () := rfl

/-! ## Sizes that fit

The bound on drawn values is computed with 64 bits and a sign, and from a size that is too large it would come out wrong or
negative.  All that is said of values is said under the condition that this does not happen. -/

/-- Below the limit of 64 bits with a sign, numbers are shown as they are. -/
theorem wrapInt64_of_lt {n : Nat} (h : n < 2 ^ 63) : wrapInt64 n = n := by
  unfold wrapInt64
  -- the balanced remainder leaves a number alone that is within half of the modulus
  refine Int.bmod_eq_of_le ?_ ?_ <;> omega

/-- For sizes whose square fits, the bound on values is that square. -/
theorem valueBound_of_lt {size : Nat} (h : size * size < 2 ^ 63) : valueBound size = ((size * size : Nat) : Int) :=
  wrapInt64_of_lt h

end SeedCorpus
