/-
  A strategy with some of its answers altered.

  `Strategy.altered` asks another strategy and changes what an `Alteration` says: other variables, other parameters,
  fewer or more arguments, helpers left out or left without a body.  An alteration may be meant for one run only; runs
  are counted by the question for the roles, with which each run begins.  Such strategies break the promises that the
  built-in ones keep, and show what a run does then.
-/
import SeedCorpus.Synthesis.Strategy

namespace SeedCorpus

/-- A variable by its role. -/
inductive Role where
  /-- The argument. -/
  | arg
  /-- The total. -/
  | sum
  /-- The counter. -/
  | counter
  /-- The array. -/
  | arr
deriving DecidableEq, Repr

/-- The variables in a role: one, or none if there is no array. -/
def Roles.inRole (roles : Roles) : Role → List VarId
  | .arg => [roles.arg]
  | .sum => [roles.sum]
  | .counter => [roles.counter]
  | .arr => roles.arr.toList

/-- What to change in the answers of a strategy. -/
structure Alteration where
  /-- The run in which the changes are made, counted from 0; all runs if there is none. -/
  onlyRun : Option Nat := none
  /-- The variables to declare in place of the strategy's, of type `int` and of type `array`. -/
  names : Option (List String × List String) := none
  /-- The parameters to use. -/
  params : Option (List Role) := none
  /-- How many arguments of a call to leave out at the end. -/
  dropArgs : Nat := 0
  /-- How many arguments of a call to add at the end. -/
  extraArgs : Nat := 0
  /-- Whether to leave the helpers out. -/
  skipHelpers : Bool := false
  /-- The name of a further helper that gets no body. -/
  bodylessHelper : Option String := none
deriving DecidableEq, Repr

namespace Altered

/-- What an altered strategy remembers. -/
structure Notes (σ : Type) where
  /-- How many runs have begun. -/
  runs : Nat := 0
  /-- What the strategy below remembers. -/
  inner : σ

variable {σ α s : Type}

/-- Whether the changes are made in the run that is going on. -/
def Notes.active (a : Alteration) (notes : Notes σ) : Bool := a.onlyRun.all (· + 1 = notes.runs)

/-- An act of the strategy below. -/
def below (act : EStateM SynthesisError (s × σ) α) : EStateM SynthesisError (s × Notes σ) α := fun (x, notes) =>
  match act (x, notes.inner) with
  | .ok a (x, inner) => .ok a (x, { notes with inner })
  | .error e (x, inner) => .error e (x, { notes with inner })

/-- Declares the roles under other names. -/
def declareRoles (ints arrays : List String) : Declaring (Notes σ) Roles := do
  let int ← Declaring.type "int"
  for name in ints do
    let _ ← Declaring.newVariable int name
  let array ← Declaring.type "array"
  for name in arrays do
    let _ ← Declaring.newVariable array name
  orFail (Roles.ofPools (← Declaring.registry))

/-- Declares the helpers that are left and the one without a body. -/
def declareHelpers (inner : Strategy σ) (a : Alteration) : Declaring (Notes σ) (List FuncId) := do
  let kept ← if a.skipHelpers then pure [] else below inner.helpers
  match a.bodylessHelper with
  | none => return kept
  | some name =>
    let int ← Declaring.type "int"
    return kept ++ [← Declaring.newFunction int name []]

end Altered

open SeedCorpus.Altered in
/-- The strategy with the changes made to its answers. -/
def Strategy.altered {σ : Type} (inner : Strategy σ) (a : Alteration) : Strategy (Altered.Notes σ) where
  roles := do
    Declaring.note fun notes => { notes with runs := notes.runs + 1 }
    match a.names, (← get).2.active a with
    | some (ints, arrays), true => declareRoles ints arrays
    | _, _ => below inner.roles
  params notes roles :=
    match a.params, notes.active a with
    | some chosen, true => chosen.flatMap roles.inRole
    | _, _ => inner.params notes.inner roles
  helpers := do
    if (← get).2.active a then Altered.declareHelpers inner a else below inner.helpers
  callArgs notes roles adjusted :=
    let args := inner.callArgs notes.inner roles adjusted
    if notes.active a then args.take (args.length - a.dropArgs) ++ List.replicate a.extraArgs (.int 7) else args
  loopGuard notes := inner.loopGuard notes.inner
  read r roles size := below (inner.read r roles size)
  write r roles call size := below (inner.write r roles call size)
  prelude r roles size := below (inner.prelude r roles size)
  takeFiles notes :=
    let (files, inner) := inner.takeFiles notes.inner
    (files, { notes with inner })

end SeedCorpus
