/-
  Every program that is generated is well-scoped and well-typed.

  Programs made in an idiom that is right are right themselves (`MadeIn.wellTyped`): their definitions stand in the order
  helpers, generated functions, `main`, so the helpers can be called in all the others, and the generated functions, which
  are announced, everywhere.  Both idioms are right, and all programs are made in one of them.
-/
import SeedCorpus.Proofs.Typing.Idioms

namespace SeedCorpus

open SeedCorpus.Random (Source)

variable {a : Assembly} {i : Idiom} {size budget : Nat}

/-! ## Names of functions

No two functions of a program have one name.  There are three kinds of names: those of helpers, those that begin with a
prefix and end with a number, and `main`. -/

/-- The helpers of an idiom have names of their own. -/
structure Idiom.NamesHelpers (i : Idiom) : Prop where
  /-- They differ. -/
  distinct : (i.helpers.map (·.name)).Nodup
  /-- None is that of `main`. -/
  notMain : "main" ∉ i.helpers.map (·.name)
  /-- None is that of a generated function. -/
  notTest : ∀ k, testName k ∉ i.helpers.map (·.name)

/-- The names of the generated functions differ, since their numbers do. -/
theorem nodup_testNames (size : Nat) : ((List.range size).map testName).Nodup :=
  List.Pairwise.map testName (fun _ _ hne he => hne (testName_injective he)) List.nodup_range

/-- The functions of a program by name, in the order of their definitions. -/
theorem Assembly.MadeIn.functionNames (h : a.MadeIn i size budget) :
    (a.helpers ++ a.tests ++ [a.main]).map a.registry.functionName =
      i.helpers.map (·.name) ++ (List.range size).map testName ++ ["main"] := by
  have hhelpers : a.helpers.map a.registry.functionName = i.helpers.map (·.name) := by
    rw [h.helpers, List.map_map]
    exact List.map_congr_left fun x hx => (h.ground.helpers x hx).functionName
  have htests : a.tests.map a.registry.functionName = (List.range size).map testName := by
    rw [h.tests, testIds, List.map_map]
    exact List.map_congr_left fun k hk => (h.ground.tests k (List.mem_range.mp hk)).functionName
  -- what is put together in order has its names in order
  rw [List.map_append, List.map_append, hhelpers, htests, List.map_cons, h.main.functionName, List.map_nil]

/-- All names differ: within each of the kinds, and between any two of them. -/
theorem nodup_functionNames (hn : i.NamesHelpers) (size : Nat) :
    (i.helpers.map (·.name) ++ (List.range size).map testName ++ ["main"]).Nodup := by
  have hmain : ∀ k, testName k ≠ "main" := fun k => testName_ne (by decide)
  refine List.nodup_append.mpr ⟨List.nodup_append.mpr ⟨hn.distinct, nodup_testNames size, ?_⟩,
    List.nodup_cons.mpr ⟨nofun, List.nodup_nil⟩, ?_⟩
  · -- a helper and a generated function
    rintro name hname other hother rfl
    obtain ⟨k, -, rfl⟩ := List.mem_map.mp hother
    exact hn.notTest k hname
  · rintro name hname other hother rfl
    obtain rfl := List.mem_singleton.mp hother
    rcases List.mem_append.mp hname with hname | hname
    · exact hn.notMain hname
    · obtain ⟨k, -, hk⟩ := List.mem_map.mp hname
      exact hmain k hk

/-! ## Programs of an idiom

A function may call what is announced and what is defined in front of it.  So each definition is looked at together with what
stands before it. -/

/-- What stands in a list of two parts stands in the first, or it stands behind the first in the second. -/
theorem mem_of_append_eq {α : Type} {front back before after : List α} {x : α} (h : front ++ back = before ++ x :: after) :
    x ∈ front ∨ x ∈ back ∧ ∀ y ∈ front, y ∈ before := by
  rcases List.append_eq_append_iff.mp h with ⟨rest, rfl, hback⟩ | ⟨rest, rfl, hafter⟩
  · exact Or.inr ⟨by rw [hback]; simp, fun y hy => List.mem_append_left _ hy⟩
  · cases rest with
    | nil => exact Or.inr ⟨by rw [← List.nil_append back, ← hafter]; simp, by simp⟩
    | cons z rest =>
      obtain rfl : x = z := (List.cons.inj hafter).1
      exact Or.inl (by simp)

/-- A program in an idiom that is right is well-scoped and well-typed. -/
theorem Assembly.MadeIn.wellTyped (h : a.MadeIn i size budget) (hi : i.Sound size)
    (hh : ∀ x ∈ i.helpers, x.Sound a.registry) (hn : i.NamesHelpers) (pos : 0 < size) : a.WellTyped where
  names := by
    rw [h.functionNames]
    exact nodup_functionNames hn size
  definitions := by
    intro before id after heq
    rw [List.append_assoc] at heq
    -- either a helper, whose body calls nothing, or a function behind all helpers
    rcases mem_of_append_eq heq with hid | ⟨hid, hbefore⟩
    · rw [h.helpers] at hid
      obtain ⟨x, hx, rfl⟩ := List.mem_map.mp hid
      obtain ⟨hdistinct, hstatements, hends⟩ := hh x hx
      exact ⟨_, _, _, _, h.ground.helpers x hx, h.helperBodies x hx, hdistinct, hstatements _, hends⟩
    -- helpers stand in front of all others, and generated functions are announced
    have hserves : ({ registry := a.registry, callable := a.tests ++ before, returns := "int" } : Context).Serves
        i size := by
      refine ⟨h.ground, fun k hk => ?_, fun x hx => ?_⟩
      · refine List.mem_append_left before ?_
        rw [h.tests]
        exact List.mem_map_of_mem (List.mem_range.mpr hk)
      · refine List.mem_append_right a.tests (hbefore x.id ?_)
        rw [h.helpers]
        exact List.mem_map_of_mem hx
    rcases List.mem_append.mp hid with hid | hid
    · rw [h.tests] at hid
      obtain ⟨k, hk, rfl⟩ := List.mem_map.mp hid
      have hk := List.mem_range.mp hk
      obtain ⟨moves, -, hfits, hbody⟩ := h.bodies k hk
      obtain ⟨-, -, hdistinct⟩ := hi.entry h.ground
      exact ⟨_, _, _, _, h.ground.tests k hk, hbody, hdistinct, i.body_typed hserves hi rfl k hfits,
        fun _ => ⟨_, _, rfl⟩⟩
    · obtain rfl := List.mem_singleton.mp hid
      obtain ⟨values, starts, hvalues, -, hst, hbody⟩ := h.mainBody
      have hne : values ≠ [] := by
        rintro rfl
        exact absurd hvalues (Nat.ne_of_lt (Nat.mul_pos pos pos))
      exact ⟨_, _, _, _, h.main, hbody, List.nodup_nil, i.mainBody_typed hserves hi rfl hne hst, fun _ => ⟨_, _, rfl⟩⟩

/-! ## Both strategies

What is left are facts on the two idioms: that they are right, and that their helpers are, with names of their own. -/

namespace SynthesisConfig

variable {config : SynthesisConfig}

theorem idiom_sound (config : SynthesisConfig) : config.idiom.Sound config.functions := by
  unfold idiom
  split
  · exact ArrayBacked.idiom_sound _
  · exact FileBacked.idiom_sound _

theorem helpers_sound {r : Registry} (hr : Ground r config.idiom config.functions) :
    ∀ x ∈ config.idiom.helpers, x.Sound r := by
  cases hs : config.strategy with
  | tree =>
    simp only [idiom, hs]
    exact List.forall_mem_nil _
  | flat =>
    simp only [idiom, hs, FileBacked.helpers_eq, List.mem_cons, List.not_mem_nil, or_false] at hr ⊢
    rintro x (rfl | rfl)
    · exact FileBacked.reader_sound hr
    · exact FileBacked.writer_sound hr

theorem idiom_namesHelpers (config : SynthesisConfig) : config.idiom.NamesHelpers := by
  unfold idiom
  split
  · exact ⟨List.nodup_nil, nofun, nofun⟩
  · have hnames : ∀ size, (fileIdiom size).helpers.map (·.name) = ["read_input", "write_output"] := fun _ => rfl
    have hnone : ∀ name ∈ ["read_input", "write_output"], "test_".toList.isPrefixOf name.toList = false := by decide
    refine ⟨?_, ?_, fun k hk => ?_⟩
    · rw [hnames]
      decide
    · rw [hnames]
      decide
    · rw [hnames] at hk
      exact testName_ne (hnone _ hk) rfl

end SynthesisConfig

/-- **Every program that is asked for is well-scoped and well-typed**: the functions that it is the text of are the helpers,
as many generated functions as were asked for and `main`, and they make up a program that is right. -/
theorem generate_wellTyped (config : SynthesisConfig) (g : Source) (pos : 0 < config.functions)
    (fits : config.functions * config.functions < 2 ^ 63) :
    ∃ (a : Assembly) (texts : List String) (p : Program), config.assembly g = .ok a ∧
      sections a.registry a.tests a.helpers a.main = .ok texts ∧ generate config g = .ok p ∧
      p.source = joinSections texts ∧
      (a.helpers ++ a.tests ++ [a.main]).map a.registry.functionName =
        config.idiom.helpers.map (·.name) ++ (List.range config.functions).map testName ++ ["main"] ∧
      a.WellTyped := by
  obtain ⟨a, ha, hmade⟩ := config.assembly_madeIn g pos fits
  obtain ⟨s, -, ht⟩ := hmade.sections_eq config.idiom_namesRoles (SynthesisConfig.idiom_wordedAs hmade.ground)
  obtain ⟨p, hp, hsource⟩ := generate_of_assembly ha ht
  exact ⟨a, _, p, ha, ht, hp, hsource, hmade.functionNames, hmade.wellTyped config.idiom_sound
    (SynthesisConfig.helpers_sound hmade.ground) config.idiom_namesHelpers pos⟩

/-- Two functions of three statements each, which read and write files. -/
def twoWithFiles : SynthesisConfig := { strategy := .flat, functions := 2, statements := some 3 }

/-- Both the functions and the program of two functions with files come about, and they are right. -/
theorem twoWithFiles_wellTyped : ∃ (a : Assembly) (p : Program), twoWithFiles.assembly (.ofSeed 5) = .ok a ∧
    generate twoWithFiles (.ofSeed 5) = .ok p ∧ a.WellTyped := by
  obtain ⟨a, _, p, ha, -, hp, -, -, hright⟩ := generate_wellTyped twoWithFiles (.ofSeed 5) (by decide) (by decide)
  exact ⟨a, p, ha, hp, hright⟩

end SeedCorpus
