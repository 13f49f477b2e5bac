/-
  Generated programs pass the gates.

  1. **Jumps**: a text without the words `break` and `continue` passes with every pair of depths.  The lines of a sketch are
     quiet, and so is what they are put together to (`Sketch.isQuiet_source`).

  2. **Nesting**: the gate looks for braces in their order, whatever is between them.  So characters may be left out of
     a text that is looked at (`hasNesting_mono`), and it is enough that some few characters of a program, in their order,
     pass the gates for length and for nesting.

  3. **Skeletons**: these few characters are those of the two helpers in programs that read and write files, and those of
     `main` and three functions without their moves in programs that share an array.  Nothing is known about the moves.
-/
import Mathlib.Data.List.Flatten
import SeedCorpus.Proofs.Filter.Jumps
import SeedCorpus.Proofs.Filter.Nesting
import SeedCorpus.Proofs.Rendering.Layout

namespace SeedCorpus

open SeedCorpus.Random (Source)

/-! ## Parts of texts

Both checks can be done on a part of the text: a quiet text has no jump anywhere, and braces are found in whatever holds them
in their order. -/

/-- A quiet text has no jumps. -/
theorem checkLoopScoping_ok {text : String} (h : isQuiet text.toList) (breakDepth continueDepth : Int) :
    checkLoopScoping text breakDepth continueDepth = .ok () :=
  checkLoopScoping_of_no_jump (no_break_of_isQuiet h) (no_continue_of_isQuiet h) _ _

/-- A text passes the gates if it is quiet and some of its characters are enough for length and nesting. -/
theorem Gates.check_of_sublist {gates : Gates} {text : String} {skeleton : List Char} (hsub : skeleton.Sublist text.toList)
    (hlength : gates.minLength < skeleton.length) (hnesting : hasNesting gates.nestingDepth gates.nestingDepth skeleton)
    (hquiet : isQuiet text.toList) : gates.check text = .ok () := by
  have hlong : ¬ text.length ≤ gates.minLength := by
    have hle := hsub.length_le
    rw [String.length_toList] at hle
    omega
  rw [Gates.check, checkLength, if_neg hlong, checkNesting, if_pos (hasNesting_mono hnesting hsub),
    checkLoopScoping_ok hquiet]
  rfl

/-! ## Programs are quiet

A text is quiet if it is so line by line, as no word begins in one line and ends in another. -/

/-- A sound line is quiet, however deep it lies. -/
theorem Line.Sound.isQuiet_printed {l : Line} (h : l.Sound) (depth : Nat) : isQuiet (l.printed depth).toList := by
  rw [Line.printed, String.toList_append, String.toList_ofList]
  refine isQuiet_append (isQuiet_of_forall fun c hc => ?_) h.clean.quiet
  obtain rfl := List.eq_of_mem_replicate hc
  decide

/-- The text that a sketch is put together to is quiet. -/
theorem Sketch.isQuiet_source {w : Wording} (hw : w.Sound) (s : Sketch) (size : Nat) :
    isQuiet (joinSections ((s.sections w size).map textOf)).toList := by
  have happend : ∀ {t u : String}, isQuiet t.toList → isQuiet u.toList → isQuiet (t ++ u).toList := fun ht hu => by
    rw [String.toList_append]
    exact isQuiet_append ht hu
  -- sections are put together with empty lines, lines with line ends, and neither brings in a letter
  refine happend (intercalate_induction (P := fun t => isQuiet t.toList) rfl happend rfl fun t ht => ?_) rfl
  obtain ⟨ls, hls, rfl⟩ := List.mem_map.mp ht
  refine intercalate_induction (P := fun t => isQuiet t.toList) rfl happend rfl fun u hu => ?_
  obtain ⟨l, hl, rfl⟩ := List.mem_map.mp hu
  exact ((s.sections_sound hw size ls hls).2 l hl).isQuiet_printed 0

/-! ## Characters in their order

What is put together from lines has their characters in it, in their order, and some white space in between. -/

/-- The characters of lines, without those between them. -/
def ink (ls : List Line) : List Char := ls.flatMap fun l => l.2.toList

theorem ink_append (ls ms : List Line) : ink (ls ++ ms) = ink ls ++ ink ms := List.flatMap_append

theorem ink_cons (l : Line) (ls : List Line) : ink (l :: ls) = l.2.toList ++ ink ls := rfl

/-- The characters of a block: its header, its lines, and the brace that closes it. -/
theorem ink_blockOf (first : String) (body : List Line) :
    ink (blockOf first body) = first.toList ++ ink body ++ ['\x7d'] := by
  have hdeeper : ink (deeper body) = ink body := by
    rw [ink, deeper, List.flatMap_map]
    rfl
  rw [blockOf, ink_append, ink_cons, hdeeper]
  rfl

/-- What is put between texts only adds characters. -/
theorem flatMap_sublist_intercalate (s : String) : ∀ l : List String,
    (l.flatMap String.toList).Sublist (s.intercalate l).toList
  | [] => List.nil_sublist _
  | [t] => by simp
  | t :: u :: l => by
    have ih := flatMap_sublist_intercalate s (u :: l)
    rw [String.intercalate_cons_cons, String.toList_append, String.toList_append, List.flatMap_cons]
    exact (List.sublist_append_left _ _).append ih

/-- The characters of sections stand in the text that is put together from them. -/
theorem ink_sublist_joinSections (ss : List (List Line)) :
    (ss.flatMap ink).Sublist (joinSections (ss.map textOf)).toList := by
  have hline : ∀ l : Line, l.2.toList.Sublist (l.printed 0).toList := fun l => by
    rw [Line.printed, String.toList_append]
    exact List.sublist_append_right _ _
  -- within a section the lines stand in their order, and so do the sections
  have hsection : ∀ ls : List Line, (ink ls).Sublist (textOf ls).toList := fun ls => by
    refine List.Sublist.trans ?_ (flatMap_sublist_intercalate "\n" (ls.map (Line.printed 0)))
    rw [List.flatMap_map]
    exact List.Sublist.flatMap_right ls fun l _ => hline l
  rw [joinSections, String.toList_append]
  refine List.Sublist.trans ?_ (List.sublist_append_left _ _)
  refine List.Sublist.trans ?_ (flatMap_sublist_intercalate "\n\n" (ss.map textOf))
  rw [List.flatMap_map]
  exact List.Sublist.flatMap_right ss fun ls _ => hsection ls

/-! ## Skeletons

A skeleton holds just what is the same in all programs of a kind. -/

/-- The characters of the helpers that read and write. -/
def helperSkeleton : List Char := ink FileBacked.readerText ++ ink FileBacked.writerText

/-- The characters of a function with an array, without its number and its moves. -/
def functionSkeleton : List Char :=
  "int test_".toList ++ "(int arg, int* arr) \x7b".toList ++ "fflush(stdout);int sum = 0;".toList ++ "return sum;".toList
    ++ ['\x7d']

/-- The characters of `main` with an array, without its numbers and its calls. -/
def mainSkeleton : List Char :=
  "int main() \x7b".toList ++ ("int sum = 0;int arr[] = \x7b".toList ++ "\x7d;".toList ++ "return sum;".toList) ++ ['\x7d']

/-- Every function has these characters in their order, whatever its moves are. -/
theorem functionSkeleton_sublist (k : Nat) (moves : List Move) :
    functionSkeleton.Sublist (ink (arrayWording.definition k moves)) := by
  have hsignature : ("int test_".toList ++ "(int arg, int* arr) \x7b".toList).Sublist
      (arrayWording.signature k ++ " \x7b").toList := by
    have htext : (arrayWording.signature k ++ " \x7b").toList
        = "int test_".toList ++ (toString k).toList ++ "(int arg, int* arr) \x7b".toList := by
      simp [Wording.signature, testName, arrayWording]
    rw [htext]
    exact (List.sublist_append_left _ _).append (List.Sublist.refl _)
  -- behind the trace line stand two statements, then the moves, then the return
  have hbody : ("fflush(stdout);int sum = 0;".toList ++ "return sum;".toList).Sublist
      (ink (arrayWording.bodyLines k moves)) := by
    have htext : ink (arrayWording.bodyLines k moves) = (traceLine k "arg").toList ++ "fflush(stdout);int sum = 0;".toList
        ++ ink (moves.flatMap (Move.lines arrayWording)) ++ "return sum;".toList := by
      rw [Wording.bodyLines, ink_append, ink_append, ink_cons]
      rfl
    rw [htext]
    exact ((List.sublist_append_right _ _).trans (List.sublist_append_left _ _)).append (List.Sublist.refl _)
  have hboth := (hsignature.append hbody).append (List.Sublist.refl ['\x7d'])
  rw [← List.append_assoc] at hboth
  rw [Wording.definition, ink_blockOf]
  exact hboth

/-- Every `main` has these characters in their order, whatever it calls. -/
theorem mainSkeleton_sublist (values : List Nat) (starts : List (Nat × Nat)) :
    mainSkeleton.Sublist (ink (arrayWording.main values starts)) := by
  -- the values of the array stand between two fixed pieces
  have hprelude : ink ((0, "int sum = 0;") :: (arrayWording.prelude values).map fun s => ((0, s) : Line))
      = "int sum = 0;int arr[] = \x7b".toList ++ (", ".intercalate (values.map toString)).toList ++ "\x7d;".toList := by
    simp [ink, arrayWording]
  have hbody : ("int sum = 0;int arr[] = \x7b".toList ++ "\x7d;".toList ++ "return sum;".toList).Sublist
      (ink ((0, "int sum = 0;") :: (arrayWording.prelude values).map (fun s => ((0, s) : Line))
        ++ starts.map (fun st => (0, arrayWording.startLine st.1 st.2)) ++ [(0, "return sum;")])) := by
    have hopening := (List.sublist_append_left "int sum = 0;int arr[] = \x7b".toList
      (", ".intercalate (values.map toString)).toList).append (List.Sublist.refl "\x7d;".toList)
    rw [ink_append, ink_append, hprelude]
    exact (hopening.trans (List.sublist_append_left _ _)).append (List.Sublist.refl _)
  rw [Wording.main, ink_blockOf]
  exact ((List.Sublist.refl _).append hbody).append (List.Sublist.refl _)

/-- The characters of a program with an array, without its numbers, moves and calls, and without all but three functions. -/
def sharedSkeleton : List Char := (List.range 3).flatMap (fun _ => functionSkeleton) ++ mainSkeleton

/-- A program with files has the characters of the helpers. -/
theorem helperSkeleton_sublist_sections (s : Sketch) (size : Nat) :
    helperSkeleton.Sublist ((s.sections fileWording size).flatMap ink) := by
  have hhelpers : fileWording.helpers.flatMap ink = helperSkeleton := by
    simp [fileWording, helperSkeleton]
  rw [Sketch.sections, List.flatMap_append, List.flatMap_append, List.flatMap_append, hhelpers]
  exact ((List.sublist_append_right _ _).trans (List.sublist_append_left _ _)).trans (List.sublist_append_left _ _)

/-- A program with an array and three functions has the characters of three functions and of `main`. -/
theorem sharedSkeleton_sublist_sections (s : Sketch) {size : Nat} (h : 3 ≤ size) :
    sharedSkeleton.Sublist ((s.sections arrayWording size).flatMap ink) := by
  -- three functions are among all of them
  have hdefinitions : ((List.range 3).flatMap fun _ => functionSkeleton).Sublist
      ((s.definitions arrayWording size).flatMap ink) := by
    rw [Sketch.definitions, List.flatMap_map]
    exact (List.Sublist.flatMap_right _ fun k _ => functionSkeleton_sublist k (s.moves k)).trans
      ((List.range_sublist.mpr h).flatMap _)
  have hmain : mainSkeleton.Sublist ([arrayWording.main s.values s.starts].flatMap ink) := by
    rw [List.flatMap_singleton]
    exact mainSkeleton_sublist s.values s.starts
  rw [Sketch.sections, List.flatMap_append, List.flatMap_append]
  exact (hdefinitions.trans (List.sublist_append_right _ _)).append hmain

/-! ## Programs pass

The skeletons are fixed texts, so that their length and their braces can be looked up. -/

/-- **What is generated passes the filter**: with the thresholds that filters have by themselves all programs do that read
and write files, and those that share an array if they have three functions or more.  No program holds the words that the
gates take for jumps. -/
theorem generate_passes (config : SynthesisConfig) (g : Source) (pos : 0 < config.functions)
    (fits : config.functions * config.functions < 2 ^ 63) :
    ∃ p, generate config g = .ok p ∧
      (config.strategy = .flat ∨ 3 ≤ config.functions → ({} : Gates).check p.source = .ok ()) ∧
      ¬ "break".toList <:+: p.source.toList ∧ ¬ "continue".toList <:+: p.source.toList ∧
      ∀ breakDepth continueDepth, checkLoopScoping p.source breakDepth continueDepth = .ok () := by
  obtain ⟨s, p, -, hp, hsource⟩ := generate_sketch config g pos fits
  have hquiet : isQuiet p.source.toList := by
    rw [hsource]
    exact s.isQuiet_source config.wording_sound config.functions
  have hink : ((s.sections config.wording config.functions).flatMap ink).Sublist p.source.toList := by
    rw [hsource]
    exact ink_sublist_joinSections _
  refine ⟨p, hp, fun hlarge => ?_, no_break_of_isQuiet hquiet, no_continue_of_isQuiet hquiet, checkLoopScoping_ok hquiet⟩
  cases hstrategy : config.strategy with
  | flat =>
    rw [SynthesisConfig.wording, hstrategy] at hink
    exact Gates.check_of_sublist ((helperSkeleton_sublist_sections s _).trans hink) (by decide +kernel)
      (by decide +kernel) hquiet
  | tree =>
    -- behind the third opening brace stand the one that closes it and the two that `main` closes
    have hthree : 3 ≤ config.functions := hlarge.resolve_left (by simp [hstrategy])
    rw [SynthesisConfig.wording, hstrategy] at hink
    exact Gates.check_of_sublist ((sharedSkeleton_sublist_sections s hthree).trans hink) (by decide +kernel)
      (by decide +kernel) hquiet

/-- One function without statements, which reads and writes files. -/
def oneWithFiles : SynthesisConfig := { strategy := .flat, functions := 1, statements := some 0 }

/-- Three functions without statements, which share an array. -/
def threeWithArray : SynthesisConfig := { strategy := .tree, functions := 3, statements := some 0 }

/-- The smallest programs of both kinds pass. -/
theorem smallest_pass :
    (∃ p, generate oneWithFiles (.ofSeed 0) = .ok p ∧ ({} : Gates).check p.source = .ok ()) ∧
      ∃ p, generate threeWithArray (.ofSeed 0) = .ok p ∧ ({} : Gates).check p.source = .ok () := by
  obtain ⟨p, hp, hcheck, -⟩ := generate_passes oneWithFiles (.ofSeed 0) (by decide) (by decide)
  obtain ⟨q, hq, hcheck', -⟩ := generate_passes threeWithArray (.ofSeed 0) (by decide) (by decide)
  exact ⟨⟨p, hp, hcheck (by decide)⟩, q, hq, hcheck' (by decide)⟩

end SeedCorpus
