/-
  The input files of programs that work on files.

  While the bodies are drawn, numbers that are read come to be filed, each with contents of its own, and what is filed stays
  as it is (`Files.keeps`): a number that is read again is the same file.

  1. **Filing.**  What is filed is in ascending order and has contents that are right (`Filed`), whatever the order was in
     which it was drawn: a number is put in its place (`ascending_insertInput`).

  2. **Steps.**  The draw of one read files its number and nothing else (`Files.mem_numbers`), and leaves all files right
     (`Files.filed`).

  3. **Trails.**  By induction on the reads, those numbers are filed after a run that were filed before it and those that
     its functions read (`trail_numbers`).

  A run hands over all that is filed and leaves nothing (`synthesized`), so that a run from nothing has just the files that
  its functions read (`generate_comes`).
-/
import SeedCorpus.Proofs.Rendering.Programs
import SeedCorpus.Proofs.Rendering.Texts

namespace SeedCorpus

open SeedCorpus.Random (Source)

namespace FileBacked

/-! ## What is filed

The numbers are kept with their contents in one list, in ascending order. -/

/-- The numbers that are filed. -/
def numbers (inputs : List (Nat × String)) : List Nat := inputs.map (·.1)

/-- The content of an input file: as many values as there are functions, one a line, and none above the square of that
number. -/
def IsContent (size : Nat) (contents : String) : Prop :=
  ∃ values : List Nat, values.length = size ∧ (∀ v ∈ values, v ≤ size * size) ∧
    contents = String.join (values.map fun v => toString v ++ "\n")

/-- All files are right: in ascending order, under numbers of functions and with contents that fit. -/
structure Filed (size : Nat) (inputs : List (Nat × String)) : Prop where
  /-- The order. -/
  ascending : (numbers inputs).Pairwise (· < ·)
  /-- The numbers. -/
  small : ∀ n ∈ numbers inputs, n < size
  /-- The contents. -/
  contents : ∀ e ∈ inputs, IsContent size e.2

/-- Where nothing is filed, nothing is wrong. -/
theorem filed_nil (size : Nat) : Filed size [] where
  ascending := .nil
  small := nofun
  contents := nofun

section Insert

variable {n : Nat} {contents : String} {inputs : List (Nat × String)}

/-- What is filed after a number is put in its place: that number and what was there. -/
theorem mem_insertInput {e : Nat × String} : e ∈ insertInput n contents inputs ↔ e = (n, contents) ∨ e ∈ inputs := by
  induction inputs with
  | nil => simp [insertInput]
  | cons first rest ih =>
    obtain ⟨m, other⟩ := first
    rw [insertInput]
    split
    · exact List.mem_cons
    · rw [List.mem_cons, ih, List.mem_cons]
      exact or_left_comm

/-- The numbers that are filed then are that number and those that were. -/
theorem mem_numbers_insertInput {m : Nat} :
    m ∈ numbers (insertInput n contents inputs) ↔ m = n ∨ m ∈ numbers inputs := by
  simp only [numbers, List.mem_map, mem_insertInput]
  constructor
  · rintro ⟨e, rfl | he, rfl⟩
    · exact Or.inl rfl
    · exact Or.inr ⟨e, he, rfl⟩
  · rintro (rfl | ⟨e, he, rfl⟩)
    · exact ⟨_, Or.inl rfl, rfl⟩
    · exact ⟨e, Or.inr he, rfl⟩

/-- A number that is not filed yet finds its place in the order. -/
theorem ascending_insertInput (h : (numbers inputs).Pairwise (· < ·)) (hn : n ∉ numbers inputs) :
    (numbers (insertInput n contents inputs)).Pairwise (· < ·) := by
  induction inputs with
  | nil => exact List.pairwise_singleton _ _
  | cons first rest ih =>
    obtain ⟨m, other⟩ := first
    obtain ⟨hfirst, hrest⟩ := List.pairwise_cons.mp h
    obtain ⟨hne, hn⟩ := not_or.mp (fun hm => hn (List.mem_cons.mpr hm))
    rw [insertInput]
    -- it stands in front of the first that is greater; else it goes on behind the first
    split
    · rename_i hlt
      refine List.pairwise_cons.mpr ⟨fun k hk => ?_, h⟩
      rcases List.mem_cons.mp hk with rfl | hk
      · exact hlt
      · exact Nat.lt_trans hlt (hfirst k hk)
    · rename_i hge
      refine List.pairwise_cons.mpr ⟨fun k hk => ?_, ih hrest hn⟩
      rcases mem_numbers_insertInput.mp hk with rfl | hk
      · exact Nat.lt_of_le_of_ne (Nat.le_of_not_lt hge) (Ne.symm hne)
      · exact hfirst k hk

/-- A number that is not found is not filed. -/
theorem notMem_numbers_of_lookup (h : inputs.lookup n = none) : n ∉ numbers inputs := by
  intro hm
  obtain ⟨e, he, rfl⟩ := List.mem_map.mp hm
  simpa using List.lookup_eq_none_iff.mp h e he

theorem mem_numbers_of_lookup (h : inputs.lookup n = some contents) : n ∈ numbers inputs := by
  obtain ⟨front, back, rfl, -⟩ := List.lookup_eq_some_iff.mp h
  exact List.mem_map.mpr ⟨(n, contents), List.mem_append_right front List.mem_cons_self, rfl⟩

end Insert

/-! ## Steps

A read either finds the file of its number or makes one (`Files`). -/

namespace Files

variable {size n m : Nat} {notes after : Notes}

/-- A step files the number that is read, and no other. -/
theorem mem_numbers (h : Files size notes n after) : m ∈ numbers after.inputs ↔ m ∈ numbers notes.inputs ∨ m = n := by
  cases h with
  | known small filed =>
    refine ⟨Or.inl, fun hm => ?_⟩
    rcases hm with hm | rfl
    · exact hm
    · exact mem_numbers_of_lookup filed
  | fresh small absent full bounded => exact mem_numbers_insertInput.trans Or.comm

/-- What is filed stays as it is. -/
theorem keeps (h : Files size notes n after) {e : Nat × String} (he : e ∈ notes.inputs) : e ∈ after.inputs := by
  cases h with
  | known small filed => exact he
  | fresh small absent full bounded => exact mem_insertInput.mpr (Or.inr he)

/-- A step leaves all files right. -/
theorem filed (h : Files size notes n after) (hf : Filed size notes.inputs) : Filed size after.inputs := by
  cases h with
  | known small filed => exact hf
  | fresh small absent full bounded =>
    -- a number that is absent is filed in its place, with values as drawn
    refine ⟨ascending_insertInput hf.ascending (notMem_numbers_of_lookup absent), fun m hm => ?_, fun e he => ?_⟩
    · rcases mem_numbers_insertInput.mp hm with rfl | hm
      · exact small
      · exact hf.small m hm
    · rcases mem_insertInput.mp he with rfl | he
      · exact ⟨_, full, bounded, rfl⟩
      · exact hf.contents e he

end Files

/-! ## Trails of steps

A trail says which numbers were read, step by step. -/

section Runs

variable {size : Nat} {notes last : Notes} {places : List Nat}

/-- After a trail those numbers are filed that were filed before, and those that were read. -/
theorem trail_numbers (h : Trail (Files size) notes places last) {m : Nat} :
    m ∈ numbers last.inputs ↔ m ∈ numbers notes.inputs ∨ m ∈ places := by
  induction h with
  | nil => simp
  | cons first rest ih => rw [ih, first.mem_numbers, List.mem_cons, or_assoc]

/-- A trail leaves all files right. -/
theorem trail_filed (h : Trail (Files size) notes places last) (hf : Filed size notes.inputs) :
    Filed size last.inputs :=
  h.keeps (P := fun notes => Filed size notes.inputs) Files.filed hf

end Runs

/-! ## Whole runs

The draws of a run are a trail, from the notes that it starts with. -/

/-- The files of a program, from what is filed. -/
def filesOf (inputs : List (Nat × String)) : List AuxFile :=
  inputs.map fun e => { name := toString e.1, contents := e.2 }

/-- The files are named by the numbers. -/
theorem names_filesOf (inputs : List (Nat × String)) : (filesOf inputs).map (·.name) = (numbers inputs).map toString := by
  simp [filesOf, numbers]

/-- There is a file of a number if and only if the number is filed. -/
theorem mem_names_filesOf {inputs : List (Nat × String)} {n : Nat} :
    toString n ∈ (filesOf inputs).map (·.name) ↔ n ∈ numbers inputs := by
  rw [names_filesOf]
  constructor
  · intro h
    -- numbers are written in different ways
    obtain ⟨m, hm, he⟩ := List.mem_map.mp h
    exact toString_injective he ▸ hm
  · exact List.mem_map_of_mem

/-- How a run comes out: the functions of a sketch, the program that they make up, and the files that go with it, from what
was filed before. -/
structure Comes (config : SynthesisConfig) (filed : List (Nat × String)) (a : Assembly) (sketch : Sketch)
    (inputs : List (Nat × String)) (p : Program) : Prop where
  /-- The functions are those of the sketch. -/
  made : a.MadeFrom (fileIdiom config.functions) config.functions config.budget sketch
  /-- All of them have bodies. -/
  sections : sections a.registry a.tests a.helpers a.main = .ok ((sketch.sections fileWording config.functions).map textOf)
  /-- The text of the program is that of the sketch. -/
  source : p.source = joinSections ((sketch.sections fileWording config.functions).map textOf)
  /-- The files. -/
  files : p.auxFiles = filesOf inputs
  /-- They are right if those were that were filed before. -/
  right : Filed config.functions filed → Filed config.functions inputs
  /-- They are those that were filed before and those that the functions read. -/
  read : ∀ n, n ∈ numbers inputs ↔ n ∈ numbers filed ∨ n ∈ sketch.reads config.functions

/-- Every run comes out, and it leaves no file. -/
theorem synthesized (config : SynthesisConfig) (before : Source × Notes) (pos : 0 < config.functions)
    (fits : config.functions * config.functions < 2 ^ 63) :
    ∃ a sketch inputs p after, (outcome (assemble fileBacked config) before).1 = .ok a ∧
      synthesize fileBacked config before = .ok p after ∧ after.2.inputs = [] ∧
      Comes config before.2.inputs a sketch inputs p := by
  obtain ⟨a, after, hact, sketch, hmade, -, notes, hnotes, htrail⟩ := assembled config before pos fits
  have hsections := hmade.sections_eq (idiom_namesRoles _) (wordedAs hmade.ground)
  refine ⟨a, sketch, after.2.inputs, _, _, outcome_of_eq hact, synthesize_eq hact hsections, rfl, ?_⟩
  refine ⟨hmade, hsections, rfl, rfl, fun hf => trail_filed htrail (hnotes ▸ hf), fun n => ?_⟩
  rw [trail_numbers htrail, hnotes]

/-- Every program that works on files comes out, from a start at which none is filed. -/
theorem generate_comes {config : SynthesisConfig} (g : Source) (hflat : config.strategy = .flat)
    (pos : 0 < config.functions) (fits : config.functions * config.functions < 2 ^ 63) :
    ∃ a sketch inputs p, config.assembly g = .ok a ∧ generate config g = .ok p ∧ Comes config [] a sketch inputs p := by
  obtain ⟨a, sketch, inputs, p, after, ha, hp, -, h⟩ := synthesized config (g, {}) pos fits
  refine ⟨a, sketch, inputs, p, ?_, ?_, h⟩
  · rw [SynthesisConfig.assembly, hflat]
    exact ha
  · rw [generate, hflat]
    exact outcome_of_eq hp

end FileBacked

end SeedCorpus
