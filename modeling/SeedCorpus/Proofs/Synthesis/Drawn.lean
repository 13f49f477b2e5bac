/-
  What is drawn is made in an idiom.

  A strategy speaks an idiom (`Strategy.Speaks`) when its answers are those of the idiom, as long as its notes hold what
  they must (`knows`).  The questions are asked one after the other while bodies are drawn, and each answer leaves notes
  that still hold it; so statement by statement (`drawOfKind_gives`), body by body (`drawBodies_gives`) the whole
  program is made from a sketch in the idiom (`assemble_gives`).

  Of the answers only those that read may change the notes, and they do it in steps (`step`), one for each place that
  is read.  The steps of a run make up a `Trail` under the places of its sketch, in the order in which they were drawn, so
  what a step does to the notes comes to hold for runs by induction on the trail.

  No draw fails on the way: functions and places are drawn from ranges that are not empty and that fit, a call has
  as many arguments as there are parameters, and every type and operation asked for is registered.
-/
import SeedCorpus.Proofs.Synthesis.Moves

namespace SeedCorpus

open SeedCorpus.Random (Source)

variable {σ : Type}

/-! ## Steps one after the other

A trail is the reflexive and transitive closure of the steps, with the places kept in order.  Keeping the places is what
allows one to say which files a program gets: those of the places on its trail. -/

/-- Steps one after the other, each under its place. -/
inductive Trail (step : σ → Nat → σ → Prop) : σ → List Nat → σ → Prop
  /-- No step. -/
  | nil {notes} : Trail step notes [] notes
  /-- One more step in front. -/
  | cons {notes mid last place places} (first : step notes place mid) (rest : Trail step mid places last) :
    Trail step notes (place :: places) last

namespace Trail

variable {step : σ → Nat → σ → Prop} {notes mid last : σ} {places more : List Nat}

/-- Two trails in a row are one, under the places of both. -/
theorem append (h : Trail step notes places mid) (h' : Trail step mid more last) :
    Trail step notes (places ++ more) last := by
  induction h with
  | nil => exact h'
  -- the first step of the first trail is the first step of both
  | cons first _ ih => exact .cons first (ih h')

/-- What every step keeps is kept. -/
theorem keeps {P : σ → Prop} (hstep : ∀ {notes place after}, step notes place after → P notes → P after)
    (h : Trail step notes places last) (hp : P notes) : P last := by
  induction h with
  | nil => exact hp
  | cons first _ ih => exact ih (hstep first hp)

end Trail

/-- The answers of a strategy are those of an idiom, as long as its notes hold what `knows` says; the notes change in
steps, when a place is read. -/
structure Strategy.Speaks (s : Strategy σ) (i : Idiom) (size : Nat) (knows : σ → Prop) (step : σ → Nat → σ → Prop)
    (r : Registry) : Prop where
  /-- The arguments of a call. -/
  args : ∀ notes first, knows notes → s.callArgs notes i.roles first = i.args first
  /-- The condition of a conditional loop. -/
  guard : ∀ notes, knows notes → s.loopGuard notes r i.roles = .ok (isPositive i.guard)
  /-- A statement that reads. -/
  read : ∀ before : Source × σ, knows before.2 → Gives (s.read r i.roles size) before fun st after =>
    knows after.2 ∧ ∃ place < i.places, step before.2 place after.2 ∧ st = .update sumVar cOperators.plus (i.value place)
  /-- A statement that writes. -/
  write : ∀ call (before : Source × σ), knows before.2 → Gives (s.write r i.roles call size) before fun st after =>
    after.2 = before.2 ∧ ∃ place < i.places, st = .whenever (isPositive argVar) [i.store place call]
  /-- The statements of `main` in front of the calls. -/
  prelude : ∀ before : Source × σ, knows before.2 → Gives (s.prelude r i.roles size) before fun block after =>
    after.2 = before.2 ∧ ∃ values, values.length = size * size ∧ (∀ v ∈ values, v ≤ size * size) ∧
      block = i.prelude values

/-- Calls in an idiom have as many arguments as the generated functions have parameters. -/
def Idiom.Fitting (i : Idiom) : Prop := ∀ first, (i.args first).length = i.params.length

variable {s : Strategy σ} {i : Idiom} {size : Nat} {knows : σ → Prop} {step : σ → Nat → σ → Prop} {r : Registry}
  {before : Source × σ}

/-! ## Statements

A statement of a kind is drawn by asking the strategy at most twice.  Where it is asked, the notes have to hold what they
must, and that has to be known afterwards again; this is why each lemma hands on `knows` of the notes that it leaves. -/

/-- The function of a number has that number as its id. -/
theorem testIds_getElem? {k : Nat} (hk : k < size) : (testIds size)[k]? = some ⟨k⟩ := by
  simp [testIds, hk]

/-- There are as many generated functions as were asked for. -/
theorem length_testIds (size : Nat) : (testIds size).length = size := by simp [testIds]

/-- A call that is drawn calls one of the generated functions, with the arguments of the idiom, and it is not refused. -/
theorem drawCall_gives (hr : Ground r i size) (hs : s.Speaks i size knows step r) (hi : i.Fitting) (pos : 0 < size)
    (fits : size ≤ 2 ^ 64) (hk : knows before.2) (first : Expr) :
    Gives (drawCall s r (i.frame size) first) before fun e after =>
      after.2 = before.2 ∧ ∃ callee < size, e = i.call callee first := by
  have hsize : (i.frame size).size = size := length_testIds size
  unfold drawCall
  rw [hsize]
  refine (Drawing.below_gives pos fits).bind fun n mid hn => ?_
  refine Drawing.notes_bind ?_
  -- the number that was drawn is in range, so that the default does not come in
  have hcallee : (i.frame size).tests[n]?.getD ⟨0⟩ = ⟨n⟩ := by
    show (testIds size)[n]?.getD ⟨0⟩ = ⟨n⟩
    rw [testIds_getElem? hn.1, Option.getD_some]
  have hargs : s.callArgs mid.2 (i.frame size).roles first = i.args first := hs.args mid.2 first (hn.2 ▸ hk)
  rw [hcallee, hargs]
  exact Gives.orFail ((hr.tests n hn.1).call (hi first)) ⟨hn.2, n, hn.1, rfl⟩

/-- A kind is drawn without a failure, and the notes do not matter. -/
theorem kind_gives : Gives (StatementKind.draw (σ := σ)) before fun _ after => after.2 = before.2 :=
  (Drawing.below_gives (by decide) (by decide)).bind fun _ _ hn => Gives.pure hn.2

/-- A drawn statement is that of a move, and leaves a trail if it reads. -/
theorem drawOfKind_gives (hr : Ground r i size) (hs : s.Speaks i size knows step r) (hi : i.Fitting) (pos : 0 < size)
    (fits : size ≤ 2 ^ 64) (hk : knows before.2) (kind : StatementKind) :
    Gives (drawOfKind s r (i.frame size) intType cOperators kind) before fun st after =>
      knows after.2 ∧ ∃ m : Move, m.Fits size i.places ∧ Trail step before.2 m.reads after.2 ∧ st = m.stmt i := by
  have hsize : (i.frame size).size = size := length_testIds size
  -- a call leaves the notes alone, so they hold what they held, and the trail has no steps
  have hsame : ∀ {notes : σ}, notes = before.2 → knows notes ∧ Trail step before.2 [] notes := by
    rintro notes rfl
    exact ⟨hk, .nil⟩
  cases kind with
  | guardedCall =>
    refine (drawCall_gives hr hs hi pos fits hk _).bind fun e after he => ?_
    obtain ⟨hnotes, callee, hcallee, rfl⟩ := he
    exact Gives.pure ⟨(hsame hnotes).1, .guardedCall callee, hcallee, (hsame hnotes).2, rfl⟩
  | countedLoop =>
    refine (drawCall_gives hr hs hi pos fits hk _).bind fun e after he => ?_
    obtain ⟨hnotes, callee, hcallee, rfl⟩ := he
    exact Gives.pure ⟨(hsame hnotes).1, .countedLoop callee, hcallee, (hsame hnotes).2, rfl⟩
  | conditionedLoop =>
    refine (drawCall_gives hr hs hi pos fits hk _).bind fun e after he => ?_
    obtain ⟨hnotes, callee, hcallee, rfl⟩ := he
    refine Drawing.notes_bind (Gives.orFail_bind (hs.guard after.2 (hsame hnotes).1) ?_)
    exact Gives.pure ⟨(hsame hnotes).1, .conditionedLoop callee, hcallee, (hsame hnotes).2, rfl⟩
  -- only here the notes may change, and the trail has the one step of the place that is read
  | read =>
    unfold drawOfKind
    rw [hsize]
    refine (hs.read before hk).imp fun st after hst => ?_
    obtain ⟨hk', place, hplace, hstep, rfl⟩ := hst
    exact ⟨hk', .read place, hplace, .cons hstep .nil, rfl⟩
  | write =>
    unfold drawOfKind
    rw [hsize]
    refine (drawCall_gives hr hs hi pos fits hk _).bind fun e after he => ?_
    obtain ⟨hnotes, callee, hcallee, rfl⟩ := he
    refine (hs.write _ after (hsame hnotes).1).imp fun st last hst => ?_
    obtain ⟨hnotes', place, hplace, rfl⟩ := hst
    have hlast := hsame (hnotes'.trans hnotes)
    exact ⟨hlast.1, .write place callee, ⟨hplace, hcallee⟩, hlast.2, rfl⟩

/-- Drawn statements are those of moves. -/
theorem drawStatements_gives (hr : Ground r i size) (hs : s.Speaks i size knows step r) (hi : i.Fitting) (pos : 0 < size)
    (fits : size ≤ 2 ^ 64) (count : Nat) : ∀ {before : Source × σ}, knows before.2 →
    Gives (drawStatements s r (i.frame size) intType cOperators count) before fun block after =>
      knows after.2 ∧ ∃ moves : List Move, moves.length = count ∧ (∀ m ∈ moves, m.Fits size i.places) ∧
        Trail step before.2 (moves.flatMap Move.reads) after.2 ∧ block = moves.map (Move.stmt i) := by
  induction count with
  -- by induction on how many statements are left; the trail of the first goes in front of that of the others
  | zero => exact fun hk => Gives.pure ⟨hk, [], rfl, nofun, .nil, rfl⟩
  | succ count ih =>
    intro before hk
    refine kind_gives.bind fun kind after hkind => ?_
    refine (drawOfKind_gives hr hs hi pos fits (hkind ▸ hk) kind).bind fun st after hst => ?_
    obtain ⟨hk', m, hm, htrail, rfl⟩ := hst
    refine (ih hk').bind fun block last hblock => ?_
    obtain ⟨hk'', moves, hlength, hmoves, htrail', rfl⟩ := hblock
    refine Gives.pure ⟨hk'', m :: moves, congrArg (· + 1) hlength, fun m' hm' => ?_, ?_, rfl⟩
    · rcases List.mem_cons.mp hm' with rfl | hm'
      · exact hm
      · exact hmoves m' hm'
    · rw [List.flatMap_cons]
      exact (hkind ▸ htrail).append htrail'

/-! ## Bodies

The number of a function is its id as well.  Bodies are drawn in the order of the numbers, and each is given to its function
at once, so that for each number one has to say that it got its body and that no later one took it away. -/

/-- A drawn body is made of moves. -/
theorem drawBody_gives (hr : Ground r i size) (hs : s.Speaks i size knows step r) (hi : i.Fitting) (ha : i.NamesRoles)
    (pos : 0 < size) (fits : size ≤ 2 ^ 64) (hk : knows before.2) (number budget : Nat) :
    Gives (drawBody s r (i.frame size) number budget) before fun block after =>
      knows after.2 ∧ ∃ moves : List Move, moves.length = budget ∧ (∀ m ∈ moves, m.Fits size i.places) ∧
        Trail step before.2 (moves.flatMap Move.reads) after.2 ∧ block = i.body number moves := by
  have hname : r.variableName (i.frame size).roles.arg = "arg" := (hr.has_arg ha).variableName
  unfold drawBody
  refine Gives.orFail_bind hr.intType_ok (Gives.orFail_bind hr.operators_ok ?_)
  refine (drawStatements_gives hr hs hi pos fits budget hk).bind fun block after hblock => ?_
  obtain ⟨hk', moves, hlength, hmoves, htrail, rfl⟩ := hblock
  refine Gives.pure ⟨hk', moves, hlength, hmoves, htrail, ?_⟩
  -- the line that traces the call is made with the name of the argument, which is known on any ground
  rw [hname]
  rfl

/-- Bodies are drawn for the functions of a list and for no others. -/
theorem drawBodies_gives (hs : ∀ r, Ground r i size → s.Speaks i size knows step r) (hi : i.Fitting) (ha : i.NamesRoles)
    (pos : 0 < size) (fits : size ≤ 2 ^ 64) (budget : Nat) (numbers : List Nat) :
    ∀ {r : Registry} {before : Source × σ}, Ground r i size → knows before.2 → numbers.Nodup → (∀ k ∈ numbers, k < size) →
    Gives (drawBodies s (i.frame size) budget r (numbers.map fun k => (k, ⟨k⟩))) before fun r' after =>
      knows after.2 ∧ r.Grows r' ∧ r'.symbols = r.symbols ∧
      (∃ moves : Nat → List Move, (∀ k ∈ numbers, ((moves k).length = budget ∧ ∀ m ∈ moves k, m.Fits size i.places) ∧
          r'.bodyOf ⟨k⟩ = some (i.body k (moves k))) ∧
        Trail step before.2 (numbers.flatMap fun k => (moves k).flatMap Move.reads) after.2) ∧
      ∀ id : FuncId, id.index ∉ numbers → r'.bodyOf id = r.bodyOf id := by
  induction numbers with
  -- by induction on the numbers that are left; that they are distinct says that no body is replaced
  | nil =>
    intro r before hr hk _ _
    exact Gives.pure ⟨hk, Registry.Grows.refl r, rfl, ⟨fun _ => [], nofun, .nil⟩, fun _ _ => rfl⟩
  | cons k numbers ih =>
    intro r before hr hk hnodup hlt
    obtain ⟨hnew, hnodup⟩ := List.nodup_cons.mp hnodup
    refine (drawBody_gives hr (hs r hr) hi ha pos fits hk k budget).bind fun block after hblock => ?_
    obtain ⟨hk', first, hlength, hfirst, htrail, rfl⟩ := hblock
    have hgrow := Registry.setBody_grows r ⟨k⟩ (i.body k first)
    refine (ih (hr.mono hgrow) hk' hnodup fun m hm => hlt m (List.mem_cons_of_mem k hm)).imp fun r' last hr' => ?_
    obtain ⟨hk'', hgrow', hsymbols, ⟨moves, hbodies, htrail'⟩, hothers⟩ := hr'
    -- the moves of the first function, and those of the others
    let all : Nat → List Move := fun m => if m = k then first else moves m
    have hself : all k = first := if_pos rfl
    have hother : ∀ m ∈ numbers, all m = moves m := fun m hm =>
      if_neg (ne_of_mem_of_not_mem hm hnew)
    refine ⟨hk'', hgrow.trans hgrow', hsymbols, ⟨all, fun m hm => ?_, ?_⟩, fun id hid => ?_⟩
    · rcases List.mem_cons.mp hm with rfl | hm
      · rw [hself, hothers ⟨m⟩ hnew]
        exact ⟨⟨hlength, hfirst⟩, (hr.tests m (hlt m List.mem_cons_self)).bodyOf_setBody _⟩
      · rw [hother m hm]
        exact hbodies m hm
    · have hrest : (numbers.flatMap fun m => (all m).flatMap Move.reads)
          = numbers.flatMap fun m => (moves m).flatMap Move.reads := by
        rw [List.flatMap_def, List.flatMap_def, List.map_congr_left fun m hm => by rw [hother m hm]]
      rw [List.flatMap_cons, hself, hrest]
      exact htrail.append htrail'
    · rw [hothers id fun hm => hid (List.mem_cons_of_mem k hm)]
      refine Registry.bodyOf_setBody_ne (fun he => hid ?_) r _
      rw [he]
      exact List.mem_cons_self

/-- Drawn starts are starts. -/
theorem drawStarts_gives (hr : Ground r i size) (hs : s.Speaks i size knows step r) (hi : i.Fitting) (pos : 0 < size)
    (fits : size * size < 2 ^ 63) (count : Nat) : ∀ {before : Source × σ}, knows before.2 →
    Gives (drawStarts s r (i.frame size) cOperators.plus count) before fun block after =>
      after.2 = before.2 ∧ ∃ starts : List (Nat × Nat), starts.length = count ∧
        (∀ st ∈ starts, st.1 ≤ size * size ∧ st.2 < size) ∧ block = starts.map fun st => i.start st.1 st.2 := by
  have hsize : (i.frame size).size = size := length_testIds size
  have hle : size ≤ size * size := Nat.le_mul_of_pos_left size pos
  induction count with
  -- by induction on how many calls are left, as with statements; but here the notes do not change at all
  | zero => exact fun hk => Gives.pure ⟨rfl, [], rfl, nofun, rfl⟩
  | succ count ih =>
    intro before hk
    unfold drawStarts
    rw [hsize, valueBound_of_lt fits]
    refine (Drawing.upTo_gives (by omega)).bind fun number after hnumber => ?_
    refine (drawCall_gives hr hs hi pos (by omega) (hnumber.2 ▸ hk) _).bind fun e mid he => ?_
    obtain ⟨hnotes, callee, hcallee, rfl⟩ := he
    have hmid : mid.2 = before.2 := hnotes.trans hnumber.2
    refine (ih (hmid ▸ hk)).bind fun block last hblock => ?_
    obtain ⟨hnotes', starts, hlength, hstarts, rfl⟩ := hblock
    refine Gives.pure ⟨hnotes'.trans hmid, (number, callee) :: starts, congrArg (· + 1) hlength, fun st hst => ?_, rfl⟩
    rcases List.mem_cons.mp hst with rfl | hst
    · exact ⟨hnumber.1, hcallee⟩
    · exact hstarts st hst

/-- The drawn body of `main` is made of starts. -/
theorem drawMain_gives (hr : Ground r i size) (hs : s.Speaks i size knows step r) (hi : i.Fitting) (pos : 0 < size)
    (fits : size * size < 2 ^ 63) (hk : knows before.2) :
    Gives (drawMain s r (i.frame size)) before fun block after =>
      after.2 = before.2 ∧ ∃ (values : List Nat) (starts : List (Nat × Nat)), values.length = size * size ∧
        (∀ v ∈ values, v ≤ size * size) ∧ starts.length = size ∧ (∀ st ∈ starts, st.1 ≤ size * size ∧ st.2 < size) ∧
        block = i.mainBody values starts := by
  have hsize : (i.frame size).size = size := length_testIds size
  unfold drawMain
  rw [hsize]
  refine Gives.orFail_bind hr.intType_ok (Gives.orFail_bind hr.operation_ok.1 ?_)
  refine (hs.prelude before hk).bind fun block after hblock => ?_
  obtain ⟨hnotes, values, hvalues, hbound, rfl⟩ := hblock
  refine (drawStarts_gives hr hs hi pos fits size (hnotes ▸ hk)).bind fun block last hblock => ?_
  obtain ⟨hnotes', starts, hlength, hstarts, rfl⟩ := hblock
  exact Gives.pure ⟨hnotes'.trans hnotes, values, starts, hvalues, hbound, hlength, hstarts, rfl⟩

/-! ## Whole programs

The parts are put together in the order of a run.  What is left to check is that `main`, which is declared last, gets in the
way of nothing: it is a new function, and its body is given to no other. -/

/-- The declarations of a strategy that starts with certain notes are those of an idiom, and leave notes as `opens` says. -/
def Strategy.Declares (s : Strategy σ) (i : Idiom) (size : Nat) (notes : σ) (opens : σ → Prop) : Prop :=
  Gives (declareAll s size) (Registry.withCTypes, notes) fun outline after =>
    outline = { roles := i.roles, tests := testIds size, helpers := i.helpers.map (·.id) } ∧ opens after.2 ∧
      after.1.symbols.Consistent ∧ Ground after.1 i size ∧ ∀ h ∈ i.helpers, after.1.bodyOf h.id = some h.body

/-- The helpers of an idiom are none of the generated functions. -/
def Idiom.Apart (i : Idiom) (size : Nat) : Prop := ∀ h ∈ i.helpers, size ≤ h.id.index

/-- What is declared on a registry of its own succeeds as on any other that is like it; the source of the run is not touched. -/
theorem onFreshRegistry_gives {α : Type} {act : Declaring σ α} {post : α → Registry × σ → Prop}
    (h : Gives act (Registry.withCTypes, before.2) post) :
    Gives (onFreshRegistry act) before fun a after => post a.1 (a.2, after.2) := by
  obtain ⟨a, after, hact, hpost⟩ := h
  refine ⟨(a, after.1), (before.1, after.2), ?_, hpost⟩
  show onFreshRegistry act (before.1, before.2) = _
  rw [onFreshRegistry, hact]

/-- Each number goes with the function of that number. -/
theorem range_zip_testIds (size : Nat) :
    (List.range size).zip (testIds size) = (List.range size).map fun k => (k, ⟨k⟩) := by
  -- both lists have one entry for each number, and it is the same
  refine List.ext_getElem (by simp [testIds]) fun n _ _ => ?_
  simp [testIds]

/-- A program is assembled without failure, and it is made from a sketch in the idiom that the strategy speaks.  From the
notes that the declarations leave, the places that are read lead to the notes at the end. -/
theorem assemble_gives {config : SynthesisConfig} {opens : σ → Prop}
    (hd : s.Declares i config.functions before.2 opens) (hopens : ∀ {notes}, opens notes → knows notes)
    (hs : ∀ r, Ground r i config.functions → s.Speaks i config.functions knows step r) (hi : i.Fitting)
    (ha : i.NamesRoles) (hapart : i.Apart config.functions) (pos : 0 < config.functions)
    (fits : config.functions * config.functions < 2 ^ 63) :
    Gives (assemble s config) before fun a after =>
      ∃ sketch : Sketch, a.MadeFrom i config.functions config.budget sketch ∧ sketch.Bounded config.functions ∧
        ∃ notes, opens notes ∧ Trail step notes (sketch.reads config.functions) after.2 := by
  -- ranges of draws depend on the number of functions, which is not touched any more
  generalize hsize : config.functions = size at *
  have hle : size ≤ size * size := Nat.le_mul_of_pos_left size pos
  unfold assemble
  rw [hsize, if_neg (Nat.ne_of_gt pos)]
  -- the declarations of the strategy leave the outline and the ground of the idiom
  refine (onFreshRegistry_gives hd).bind fun ⟨outline, r⟩ after hafter => ?_
  obtain ⟨rfl, hopen, hconsistent, hr, hhelpers⟩ := hafter
  dsimp only at hopen hconsistent hr hhelpers ⊢
  rw [range_zip_testIds]
  refine (drawBodies_gives hs hi ha pos (by omega) config.budget (List.range size) hr (hopens hopen) List.nodup_range
    fun k hk => List.mem_range.mp hk).bind fun r' after' hr' => ?_
  obtain ⟨hk', hgrow, hsymbols, ⟨moves, hbodies, htrail⟩, hothers⟩ := hr'
  have hground := hr.mono hgrow
  refine (drawMain_gives hground (hs r' hground) hi pos fits hk').bind fun block last hblock => ?_
  obtain ⟨hnotes, values, starts, hvalues, hbound, hstarts, hfit, rfl⟩ := hblock
  refine Gives.orFail_bind hground.intType_ok (Gives.pure ⟨⟨moves, values, starts⟩, ?_,
    ⟨hbound, fun st hst => (hfit st hst).1⟩, after.2, hopen, hnotes ▸ htrail⟩)
  obtain ⟨-, hgrow', hmain, -, hkeep⟩ := Registry.declareFunction_spec (hsymbols ▸ hconsistent)
    (hground.base.texts _ _ (show Registry.withCTypes.symbols.text? intType.spelling = some "int" from rfl)) "main" []
  -- `main` is none of the functions that have a body by then
  have hbody : ∀ id body, r'.bodyOf id = some body →
      ((r'.declareFunction intType "main" []).2.setBody ⟨r'.functions.size⟩ (i.mainBody values starts)).bodyOf id
        = some body := by
    intro id body hb
    rw [Registry.bodyOf_setBody_ne (Registry.ne_next_of_bodyOf hb)]
    exact hkeep id body hb
  refine ⟨?_, ⟨fun k hk => ?_, hvalues, hstarts, fun st hst => (hfit st hst).2⟩, rfl, rfl, fun k hk => ?_,
    fun h hh => ?_, ?_, ?_⟩
  · exact (hground.mono hgrow').mono (Registry.setBody_grows _ _ _)
  · exact (hbodies k (List.mem_range.mpr hk)).1
  · exact hbody _ _ (hbodies k (List.mem_range.mpr hk)).2
  · refine hbody _ _ ?_
    rw [hothers h.id fun hm => absurd (List.mem_range.mp hm) (Nat.not_lt.mpr (hapart h hh))]
    exact hhelpers h hh
  · exact hmain.mono (Registry.setBody_grows _ _ _)
  · exact hmain.bodyOf_setBody _

end SeedCorpus
