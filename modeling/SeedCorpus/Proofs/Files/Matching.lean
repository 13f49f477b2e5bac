/-
  Programs and their input files match.

  1. **What is called.**  In the functions of a program that works on files, a call is one of a generated function, one of the
     helper that reads, with the name of a number that the functions read, or one of the helper that writes, with the name
     of an output (`FileBacked.allows`, `FileBacked.call_cases`); and the helpers call nothing.

  2. **What is filed.**  After a run those numbers are filed that the functions read (`Comes.read`), in ascending order and with
     contents that are right (`Filed`).

  So there is a file for every read and a read for every file (`generate_matchesFiles`), in the functions and in the text.
-/
import SeedCorpus.Proofs.Files.Inputs
import SeedCorpus.Proofs.Files.Mentions
import SeedCorpus.Proofs.Syntax.Parts

namespace SeedCorpus

open SeedCorpus.Random (Source)
open SeedCorpus.FileBacked (quoted readerName writerName)

/-! ## Matching

Calls are found by the name of the function that is called, as a reader of the program would find them. -/

namespace Assembly

/-- In a function a call occurs of a function of a name, with certain arguments. -/
def Calls (a : Assembly) (id : FuncId) (name : String) (args : List Expr) : Prop :=
  ∃ callee, a.registry.functionName callee = name ∧ a.Has id (.call callee args)

/-- The functions of a program match certain input files. -/
structure MatchesFiles (a : Assembly) (size : Nat) (files : List AuxFile) : Prop where
  /-- The files are named by numbers of functions, in ascending order. -/
  named : ∃ numbers : List Nat, numbers.Pairwise (· < ·) ∧ (∀ n ∈ numbers, n < size) ∧
    files.map (·.name) = numbers.map toString
  /-- No two files have one name. -/
  distinct : (files.map (·.name)).Nodup
  /-- Each of them holds as many numbers as there are functions, one a line, and none above the square of that number. -/
  contents : ∀ f ∈ files, FileBacked.IsContent size f.contents
  /-- Each of them is read in a generated function. -/
  read : ∀ f ∈ files, ∃ id ∈ a.tests, a.Calls id readerName [quoted f.name]
  /-- Whatever is read is one of them. -/
  backed : ∀ id ∈ a.functions, ∀ args, a.Calls id readerName args → ∃ f ∈ files, args = [quoted f.name]
  /-- Whatever is written is an output of a number. -/
  written : ∀ id ∈ a.functions, ∀ args, a.Calls id writerName args →
    ∃ n < size, ∃ value, args = [quoted ("out_" ++ toString n), value]
  /-- No output is one of the files. -/
  apart : ∀ f ∈ files, ∀ n : Nat, f.name ≠ "out_" ++ toString n

end Assembly

namespace FileBacked

/-! ## What is called

`Speech` says which calls may occur, and `Idiom.Allows` carries that from the statements to the functions of a run. -/

/-- What may occur in functions that read certain numbers: calls are those of generated functions and of the helpers. -/
def Speech (size : Nat) (reads : Nat → Prop) : Expr → Prop
  | .call callee args => (∃ k < size, callee = ⟨k⟩) ∨ (callee = ⟨size⟩ ∧ ∃ n, reads n ∧ args = [quoted (toString n)]) ∨
      (callee = ⟨size + 1⟩ ∧ ∃ n < size, ∃ value, args = [quoted ("out_" ++ toString n), value])
  | _ => True

/-- In a text between quotation marks nothing is called. -/
theorem speech_quoted {size : Nat} {reads : Nat → Prop} (text : String) : (quoted text).All (Speech size reads) := by
  intro x hx
  obtain rfl := List.mem_singleton.mp hx
  trivial

/-- Nothing else occurs in programs that work on files. -/
theorem allows (size : Nat) (reads : Nat → Prop) : (fileIdiom size).Allows size reads (Speech size reads) where
  plain e he := by
    -- only calls are asked about
    cases e with
    | call callee args => cases he
    | _ => trivial
  call callee hc first hf := by
    refine Expr.all_call.mpr ⟨Or.inl ⟨callee, hc, rfl⟩, fun x hx => ?_⟩
    obtain rfl := List.mem_singleton.mp hx
    exact hf
  value n hn := by
    refine Expr.all_call.mpr ⟨Or.inr (Or.inl ⟨rfl, n, hn, rfl⟩), fun x hx => ?_⟩
    obtain rfl := List.mem_singleton.mp hx
    exact speech_quoted _
  store n hn call hc := by
    refine Expr.all_call.mpr ⟨Or.inr (Or.inr ⟨rfl, n, hn, call, rfl⟩), fun x hx => ?_⟩
    rcases List.mem_cons.mp hx with rfl | hx
    · exact speech_quoted _
    · obtain rfl := List.mem_singleton.mp hx
      exact hc
  prelude values := nofun

section Calls

variable {a : Assembly} {size budget : Nat} {s : Sketch} {id : FuncId}

/-- The helpers call nothing. -/
theorem helper_has_no_call (h : a.MadeFrom (fileIdiom size) size budget s) (hid : id ∈ a.helpers) {callee : FuncId}
    {args : List Expr} : ¬ a.Has id (.call callee args) := by
  rintro ⟨body, hbody, hcall⟩
  -- the bodies of the two helpers are fixed texts
  have hplain : ∀ body ∈ [readerLines, writerLines], (blockParts body).all fun e => !(e matches .call ..) := by decide
  rw [h.helpers] at hid
  obtain ⟨x, hx, rfl⟩ := List.mem_map.mp hid
  rw [h.helperBodies x hx] at hbody
  obtain rfl := Option.some.inj hbody
  have hmem : x.body ∈ [readerLines, writerLines] := by
    simp only [fileIdiom, List.mem_cons, List.not_mem_nil, or_false] at hx
    rcases hx with rfl | rfl <;> simp
  cases List.all_eq_true.mp (hplain x.body hmem) _ hcall

/-- A call in the functions of a program is one of three. -/
theorem call_cases (h : a.MadeFrom (fileIdiom size) size budget s) (hid : id ∈ a.functions) {callee : FuncId}
    {args : List Expr} (hcall : a.Has id (.call callee args)) : Speech size (· ∈ s.reads size) (.call callee args) := by
  rw [Assembly.functions, List.append_assoc] at hid
  rcases List.mem_append.mp hid with hid | hid
  · exact absurd hcall (helper_has_no_call h hid)
  · exact h.allows (allows size _) hid hcall

/-- What is read is named by a number that the functions read, and it is read in a generated function. -/
theorem read_of_calls (h : a.MadeFrom (fileIdiom size) size budget s) (hid : id ∈ a.functions) {args : List Expr}
    (hcall : a.Calls id readerName args) : ∃ n ∈ s.reads size, args = [quoted (toString n)] := by
  obtain ⟨callee, hname, hcall⟩ := hcall
  -- generated functions and the helper that writes have other names
  rcases call_cases h hid hcall with ⟨k, hk, rfl⟩ | ⟨-, hread⟩ | ⟨rfl, -⟩
  · rw [(h.ground.tests k hk).functionName] at hname
    exact absurd hname (testName_ne (by decide))
  · exact hread
  · have hwriter := h.ground.helpers _ (List.mem_cons_of_mem _ List.mem_cons_self)
    rw [hwriter.functionName] at hname
    exact absurd hname (show writerName ≠ readerName by decide)

/-- What is written is an output. -/
theorem write_of_calls (h : a.MadeFrom (fileIdiom size) size budget s) (hid : id ∈ a.functions) {args : List Expr}
    (hcall : a.Calls id writerName args) : ∃ n < size, ∃ value, args = [quoted ("out_" ++ toString n), value] := by
  obtain ⟨callee, hname, hcall⟩ := hcall
  -- generated functions and the helper that reads have other names
  rcases call_cases h hid hcall with ⟨k, hk, rfl⟩ | ⟨rfl, -⟩ | ⟨-, hwrite⟩
  · rw [(h.ground.tests k hk).functionName] at hname
    exact absurd hname (testName_ne (by decide))
  · have hreader := h.ground.helpers _ List.mem_cons_self
    rw [hreader.functionName] at hname
    exact absurd hname (show readerName ≠ writerName by decide)
  · exact hwrite

end Calls

/-! ## What is filed

A run from nothing files just what its functions read, so that both directions can be read off one equivalence. -/

/-- A number is not written like an output. -/
theorem number_ne_output (n m : Nat) : toString n ≠ "out_" ++ toString m := by
  intro he
  have ho : 'o' ∈ ("out_" ++ toString m).toList := by
    rw [String.toList_append]
    exact List.mem_append_left _ (by decide)
  rw [← he] at ho
  exact absurd (isDigit_of_mem_toString ho) (by decide)

/-- A program matches the files of its run, if none were filed before. -/
theorem Comes.matchesFiles {config : SynthesisConfig} {a : Assembly} {sketch : Sketch} {inputs : List (Nat × String)}
    {p : Program} (h : Comes config [] a sketch inputs p) : a.MatchesFiles config.functions p.auxFiles := by
  have hfiled := h.right (filed_nil _)
  have hread : ∀ n, n ∈ numbers inputs ↔ n ∈ sketch.reads config.functions := fun n => by simpa [numbers] using h.read n
  have hreader := h.made.ground.helpers _ List.mem_cons_self
  rw [h.files]
  refine ⟨⟨numbers inputs, hfiled.ascending, hfiled.small, names_filesOf inputs⟩, ?_, fun f hf => ?_, fun f hf => ?_,
    fun id hid args hcall => ?_, fun id hid args hcall => write_of_calls h.made hid hcall, fun f hf n => ?_⟩
  · rw [names_filesOf]
    exact hfiled.ascending.map toString fun m n hlt he => Nat.ne_of_lt hlt (toString_injective he)
  · obtain ⟨e, he, rfl⟩ := List.mem_map.mp hf
    exact hfiled.contents e he
  · obtain ⟨e, he, rfl⟩ := List.mem_map.mp hf
    -- what is filed is read, in a generated function
    obtain ⟨id, hid, hcall⟩ := h.made.has_value ((hread e.1).mp (List.mem_map_of_mem he))
    exact ⟨id, hid, _, hreader.functionName, hcall⟩
  · -- what is read is filed
    obtain ⟨n, hn, rfl⟩ := read_of_calls h.made hid hcall
    obtain ⟨e, he, rfl⟩ := List.mem_map.mp ((hread n).mpr hn)
    exact ⟨_, List.mem_map_of_mem he, rfl⟩
  · obtain ⟨e, -, rfl⟩ := List.mem_map.mp hf
    exact number_ne_output e.1 n

end FileBacked

/-- **The program and the input files of a run match exactly**, in its functions and in its text. -/
theorem generate_matchesFiles (config : SynthesisConfig) (g : Source) (hflat : config.strategy = .flat)
    (pos : 0 < config.functions) (fits : config.functions * config.functions < 2 ^ 63) :
    ∃ (a : Assembly) (texts : List String) (p : Program), config.assembly g = .ok a ∧
      sections a.registry a.tests a.helpers a.main = .ok texts ∧ generate config g = .ok p ∧
      p.source = joinSections texts ∧ a.MatchesFiles config.functions p.auxFiles ∧
      ∀ n, toString n ∈ p.auxFiles.map (·.name) ↔ MentionsRead p.source n := by
  obtain ⟨a, sketch, inputs, p, ha, hp, h⟩ := FileBacked.generate_comes g hflat pos fits
  refine ⟨a, _, p, ha, h.sections, hp, h.source, h.matchesFiles, fun n => ?_⟩
  rw [h.files, FileBacked.mem_names_filesOf, h.source, Sketch.mentionsRead_source]
  simpa [FileBacked.numbers] using h.read n

/-- Two functions of three statements each, which read and write files. -/
def twoReading : SynthesisConfig := { strategy := .flat, functions := 2, statements := some 3 }

/-- Such a program comes out and matches. -/
theorem twoReading_matchesFiles : ∃ (a : Assembly) (p : Program), twoReading.assembly (.ofSeed 3) = .ok a ∧
    generate twoReading (.ofSeed 3) = .ok p ∧ a.MatchesFiles 2 p.auxFiles := by
  obtain ⟨a, _, p, ha, -, hp, -, hmatches, -⟩ := generate_matchesFiles twoReading (.ofSeed 3) rfl (by decide) (by decide)
  exact ⟨a, p, ha, hp, hmatches⟩

end SeedCorpus
