/-
  A program in a folder.

  To write a program is to write its files in their order, the source first, up to the first that has the name of a folder.
  Nothing says that the names are different: a file may be written over by one that comes later, and so may the source.

  1. **What is handed over**: the numbers that are filed are in ascending order, each once, whether or not the runs before
     succeeded (`FileBacked.remembers_ascending`).  So the input files of a program are named by different numbers
     (`auxFiles_of_generated`), and a number is never the name of a source.

  2. **What is written**: each name stands for what was written last under it, in front of the first folder in the way, and
     everything else is as it was (`Program.writeTo_upTo`).

  So whatever the folder holds, a generated program that has been written is there with all of its files (`writeTo_saves`).
-/
import SeedCorpus.Proofs.Files.Batches
import SeedCorpus.Proofs.Synthesis.Renewal
import SeedCorpus.Proofs.Synthesis.Upholding

namespace SeedCorpus

open SeedCorpus.Random (Source)
open SeedCorpus.Folder SeedCorpus.FileTree SeedCorpus.Path

/-! ## What is handed over

The strategy is asked for files when a run ends, and hands over what is in its notes.  That the numbers ascend is an
invariant of the notes (`Strategy.Remembers`), which failing runs keep as well. -/

namespace FileBacked

/-- The numbers of the input files ascend. -/
def Ascending (notes : Notes) : Prop := (numbers notes.inputs).Pairwise (· < ·)

/-- A number is filed in its place, and only if it is not filed yet. -/
theorem ensureInput_upholds (n size : Nat) : Upholds Ascending (ensureInput n size) := by
  unfold ensureInput
  refine .notes_bind fun g notes hk => ?_
  cases hl : notes.inputs.lookup n with
  | some contents => exact hk
  | none =>
    -- the draws leave the notes alone, so the number is still not filed behind them
    have hdraws : Upholds (· = notes) (Drawing.manyUpTo (valueBound size) size) := .manyUpTo _ _
    have hsame := hdraws g notes rfl
    dsimp only
    rw [outcome_bind]
    unfold outcome at hsame
    cases hdraw : Drawing.manyUpTo (valueBound size) size (g, notes) with
    | ok values mid =>
      obtain ⟨g', notes'⟩ := mid
      rw [hdraw] at hsame
      obtain rfl : notes' = notes := hsame
      exact ascending_insertInput hk (notMem_numbers_of_lookup hl)
    | error e mid =>
      obtain ⟨g', notes'⟩ := mid
      rw [hdraw] at hsame
      obtain rfl : notes' = notes := hsame
      exact hk

/-- The helpers are declared without a look at what is filed. -/
theorem declareHelpers_upholds : Upholds Ascending declareHelpers :=
  (Upholds.type _).bind fun _ => (Upholds.type _).bind fun _ => (Upholds.type _).bind fun _ => Upholds.registry.bind fun _ =>
    (Upholds.orFail _).bind fun _ => (Upholds.declare _).bind fun _ => (Upholds.declare _).bind fun _ =>
    (Upholds.declare _).bind fun _ => (Upholds.declare _).bind fun reader => Upholds.registry.bind fun _ =>
    (Upholds.declare _).bind fun _ => (Upholds.declare _).bind fun writer => Upholds.registry.bind fun _ =>
    (Upholds.declare _).bind fun _ => (Upholds.noteDeclaring fun _ hk => hk).bind fun _ => .pure [reader, writer]

/-- All answers of the strategy leave the numbers in ascending order, and what is handed over leaves none. -/
theorem remembers_ascending : fileBacked.Remembers Ascending where
  roles := Upholds.declareIntRoles.bind fun _ => Upholds.registry.bind fun r => .orFail _
  helpers := declareHelpers_upholds
  read r roles size := by
    refine .notes_bind fun g notes hk => Upholds.bind (.orFail _) (fun reader => ?_) g notes hk
    refine (Upholds.below size).bind fun n => (ensureInput_upholds n size).bind fun _ => ?_
    exact (Upholds.orFail _).bind fun call => (Upholds.orFail _).bind fun plus => .pure _
  write r roles call size := by
    refine .notes_bind fun g notes hk => Upholds.bind (.orFail _) (fun writer => ?_) g notes hk
    refine (Upholds.below size).bind fun n => (Upholds.orFail _).bind fun store => ?_
    exact (Upholds.orFail _).bind fun guarded => .pure _
  prelude _ _ _ := .pure _
  takeFiles _ _ := .nil

end FileBacked

open SeedCorpus.FileBacked (Ascending filesOf numbers)

/-- A program comes from one run, or it is one of those that one strategy object makes in a row. -/
def Generated (config : SynthesisConfig) (g : Source) (p : Program) : Prop :=
  generate config g = .ok p ∨ ∃ count, .ok p ∈ (runs config g count).1

/-- The strategy whose functions share an array has no notes. -/
theorem arrayBacked_remembers : arrayBacked.Remembers fun _ => True where
  roles _ _ _ := trivial
  helpers _ _ _ := trivial
  read _ _ _ _ _ _ := trivial
  write _ _ _ _ _ _ _ := trivial
  prelude _ _ _ _ _ _ := trivial
  takeFiles _ _ := trivial

/-- The input files of a generated program are named by numbers, in ascending order. -/
theorem auxFiles_of_generated {config : SynthesisConfig} {g : Source} {p : Program} (h : Generated config g p) :
    ∃ inputs, (numbers inputs).Pairwise (· < ·) ∧ p.auxFiles = filesOf inputs := by
  unfold Generated generate runs at h
  -- the one strategy hands over nothing, the other one what it has filed
  cases hs : config.strategy with
  | tree =>
    rw [hs] at h
    refine ⟨[], .nil, ?_⟩
    obtain hone | ⟨count, hmany⟩ := h
    · obtain ⟨_, _, hfiles⟩ := (synthesize_upholds arrayBacked_remembers config).2 g () p trivial hone
      exact hfiles
    · obtain ⟨_, _, hfiles⟩ := synthesizeMany_upholds arrayBacked_remembers config count trivial p hmany
      exact hfiles
  | flat =>
    rw [hs] at h
    have hnew : Ascending {} := .nil
    obtain hone | ⟨count, hmany⟩ := h
    · obtain ⟨notes, hk, hfiles⟩ := (synthesize_upholds FileBacked.remembers_ascending config).2 g {} p hnew hone
      exact ⟨notes.inputs, hk, hfiles⟩
    · obtain ⟨notes, hk, hfiles⟩ := synthesizeMany_upholds FileBacked.remembers_ascending config count hnew p hmany
      exact ⟨notes.inputs, hk, hfiles⟩

/-- No two files of a generated program have one name, and all of them have names of files. -/
theorem Generated.names {config : SynthesisConfig} {g : Source} {p : Program} (h : Generated config g p) :
    (∀ f ∈ p.auxFiles, Path.IsPlain f.name) ∧ ∀ name, ((p.files name).map (·.name)).Nodup := by
  obtain ⟨inputs, hascending, hfiles⟩ := auxFiles_of_generated h
  -- the names are those of the numbers
  have hnames : p.auxFiles.map (·.name) = (numbers inputs).map toString := by
    rw [hfiles, FileBacked.names_filesOf]
  have hnumbers : ∀ f ∈ p.auxFiles, ∃ n : Nat, f.name = toString n := by
    intro f hf
    have hname := List.mem_map_of_mem (f := (·.name)) hf
    rw [hnames] at hname
    obtain ⟨n, -, he⟩ := List.mem_map.mp hname
    exact ⟨n, he.symm⟩
  have hdistinct : (p.auxFiles.map (·.name)).Nodup := by
    rw [hnames]
    exact hascending.map toString fun n m hlt he => Nat.ne_of_lt hlt (toString_injective he)
  refine ⟨fun f hf => ?_, Program.nodup_files hnumbers hdistinct⟩
  obtain ⟨n, hn⟩ := hnumbers f hf
  rw [hn]
  exact isPlain_toString n

/-! ## What is written

Here programs are of any kind, with names that may come twice.  What is written is followed up to the first name that a
folder has. -/

variable {t : FileTree} {path name : String} {parts : List String} {d : Folder} {p : Program}

/-- The name of a source ends with `c`. -/
theorem getLast?_source (name : String) : (name ++ ".c").toList.getLast? = some 'c' := by
  simp

/-- The name of a source is a name if that of the program is one. -/
theorem isPlain_source (h : Path.IsPlain name) : Path.IsPlain (name ++ ".c") where
  nonempty he := absurd (he ▸ getLast?_source name) (by decide)
  notDot he := absurd (he ▸ getLast?_source name) (by decide)
  notDots he := absurd (he ▸ getLast?_source name) (by decide)
  noSlash hm := by
    rw [String.toList_append] at hm
    rcases List.mem_append.mp hm with hm | hm
    · exact h.noSlash hm
    · exact absurd hm (by decide)

/-- All files of a program have names of files, if the input files do. -/
theorem isPlain_files (hn : Path.IsPlain name) (haux : ∀ f ∈ p.auxFiles, Path.IsPlain f.name) :
    ∀ f ∈ p.files name, Path.IsPlain f.name :=
  List.forall_mem_cons.mpr ⟨isPlain_source hn, haux⟩

/-- Files have been put into a folder, one after the other: under each of their names there is the last one of that name, and
nothing else has changed. -/
structure FileTree.Gains (t : FileTree) (path : String) (parts : List String) (d : Folder) (files : List AuxFile)
    (t' : FileTree) : Prop where
  /-- The folder. -/
  folder : ∃ d', t'.LeadsTo path parts d' ∧ ∀ name, get? d' name =
    ((files.findRev? (·.name = name)).map fun f => .file f.contents.toUTF8).or (get? d name)
  /-- What is not in the folder. -/
  outside : SameOutside t t' parts

/-- The files of a program are put into the folder up to the first that has the name of a folder, and the program is written
if there is none. -/
theorem Program.writeTo_upTo (h : t.LeadsTo path parts d) (hplain : ∀ f ∈ p.files name, Path.IsPlain f.name)
    (hreach : ∀ f ∈ p.files name, isFolderAt d f.name = false → Reaches path f.name) :
    ∃ t', t.Gains path parts d (unhindered d (p.files name)) t' ∧
      ((∀ f ∈ p.files name, isFolderAt d f.name = false) → p.writeTo t path name = (.ok (join path (name ++ ".c")), t')) ∧
      ((∃ f ∈ p.files name, isFolderAt d f.name = true) → ∃ e, p.writeTo t path name = (.error (.storage e), t')) := by
  obtain ⟨result, t', hwrite, hleads, houtside, hiff⟩ := h.writeFiles_upTo (p.files name) hplain hreach
  refine ⟨t', ⟨⟨_, hleads, fun other => get?_putAll _ other d⟩, houtside⟩, fun hfree => ?_, fun hblocked => ?_⟩
  · obtain rfl := hiff.mpr hfree
    exact Program.writeTo_ok hwrite
  · -- if a folder is in the way, it was not all written
    cases result with
    | error e => exact ⟨e, Program.writeTo_error hwrite⟩
    | ok u =>
      obtain ⟨f, hf, hfolder⟩ := hblocked
      rw [hiff.mp rfl f hf] at hfolder
      cases hfolder

/-- A generated program that has been written is there, with all of its files. -/
theorem Generated.read {config : SynthesisConfig} {g : Source} (hp : Generated config g p) (h : t.LeadsTo path parts d)
    (hn : Path.IsPlain name) {source : String} {t' : FileTree} (hok : p.writeTo t path name = (.ok source, t')) :
    ∀ f ∈ p.files name, t'.read (join path f.name) = .ok f.contents.toUTF8 := by
  obtain ⟨haux, hnodup⟩ := hp.names
  obtain ⟨hleads, hfree⟩ := h.of_writeFiles (p.files name) (isPlain_files hn haux) (Program.writeFiles_of_writeTo hok)
  intro f hf
  exact hleads.read_join (hfree f hf).1 (get?_putAll_of_mem (hnodup name) hf)

/-- **A program is written in order, up to the first file that has the name of a folder.**  Whatever is written stands under its
name unless a later file has the same, and nothing else in the folder or outside it changes.  The files of a generated program
have different names, so once it is written all of them are there. -/
theorem writeTo_saves (h : t.LeadsTo path parts d) (hn : Path.IsPlain name) :
    (∀ p : Program, (∀ f ∈ p.auxFiles, Path.IsPlain f.name) →
      (∀ f ∈ p.files name, isFolderAt d f.name = false → (t.write (join path f.name) f.contents.toUTF8).isOk) →
      ((∀ f ∈ p.files name, isFolderAt d f.name = false) →
        ∃ t', p.writeTo t path name = (.ok (join path (name ++ ".c")), t') ∧ t.Gains path parts d (p.files name) t') ∧
      ∀ front f back, p.files name = front ++ f :: back → (∀ g ∈ front, isFolderAt d g.name = false) →
        isFolderAt d f.name = true →
        ∃ e t', p.writeTo t path name = (.error (.storage e), t') ∧ t.Gains path parts d front t') ∧
    ∀ config g p, Generated config g p →
      (∀ f ∈ p.auxFiles, Path.IsPlain f.name) ∧ ((p.files name).map (·.name)).Nodup ∧
      ∀ source t', p.writeTo t path name = (.ok source, t') →
        ∀ f ∈ p.files name, t'.read (join path f.name) = .ok f.contents.toUTF8 := by
  constructor
  · intro p haux hwrites
    have hplain := isPlain_files hn haux
    -- a name under which one can write can be used as a name
    have hreach : ∀ f ∈ p.files name, isFolderAt d f.name = false → Reaches path f.name := by
      intro f hf hfree
      have hok := hwrites f hf hfree
      cases hwrite : t.write (join path f.name) f.contents.toUTF8 with
      | error e => rw [hwrite] at hok; cases hok
      | ok t' => exact h.reaches_of_write (hplain f hf) hwrite
    obtain ⟨t', hgains, hok, herror⟩ := Program.writeTo_upTo h hplain hreach
    constructor
    · intro hfree
      rw [unhindered_of_free hfree] at hgains
      exact ⟨t', hok hfree, hgains⟩
    · -- what is written stands in front of the folder in the way
      intro front f back hfiles hfront hf
      obtain ⟨e, he⟩ := herror ⟨f, by simp [hfiles], hf⟩
      rw [hfiles, unhindered_append hfront, unhindered_cons_folder hf, List.append_nil] at hgains
      exact ⟨e, t', he, hgains⟩
  · intro config g p hp
    exact ⟨hp.names.1, hp.names.2 name, fun source t' => hp.read h hn⟩

/-! ## A folder in the way

A program with names that come twice, one of them that of a folder, and one that is generated. -/

/-- A folder that holds another one. -/
def withThree : Folder := [("3", .folder [])]

/-- A program whose files have names that come twice, with one of them the name of a folder. -/
def clashing : Program :=
  { source := "a", auxFiles := [⟨"x", "b"⟩, ⟨"p.c", "c"⟩, ⟨"x", "d"⟩, ⟨"3", "e"⟩, ⟨"y", "f"⟩] }

/-- The folder is the one that the commands run in. -/
theorem withThree_leadsTo : (ofFolder withThree).LeadsTo "." [] withThree where
  nonempty := by decide
  noNul := by decide
  short := by decide
  walk := rfl
  folder := rfl
  noDevices := by decide

/-- All of the names can be used. -/
theorem clashing_reaches : ∀ f ∈ clashing.files "p", Reaches "." f.name := by
  have hnames : ∀ name ∈ ["p.c", "x", "p.c", "x", "3", "y"], Reaches "." name := by
    simp only [List.forall_mem_cons]
    refine ⟨?_, ?_, ?_, ?_, ?_, ?_, nofun⟩ <;>
      exact ⟨⟨by decide, by decide, by decide, by decide, by decide, by decide⟩, by decide⟩
  intro f hf
  exact hnames f.name (List.mem_map_of_mem (f := (·.name)) hf)

/-- The first program is written up to the folder, with the last file of each name in front of it; the second one is written
with all of its files. -/
theorem clashing_saves :
    (∃ e t' d', clashing.writeTo (ofFolder withThree) "." "p" = (.error (.storage e), t') ∧ t'.LeadsTo "." [] d' ∧
      get? d' "p.c" = some (.file "c".toUTF8) ∧ get? d' "x" = some (.file "d".toUTF8) ∧
      get? d' "3" = some (.folder []) ∧ get? d' "y" = none) ∧
    ∃ p t', generate twoReading (.ofSeed 3) = .ok p ∧
      p.writeTo (ofFolder withThree) "." "p" = (.ok (join "." ("p" ++ ".c")), t') ∧
      ∀ f ∈ p.files "p", t'.read (join "." f.name) = .ok f.contents.toUTF8 := by
  have hplain : Path.IsPlain "p" := ⟨by decide, by decide, by decide, by decide⟩
  have hwrite : ∀ {f : AuxFile}, Reaches "." f.name → isFolderAt withThree f.name = false →
      ((ofFolder withThree).write (join "." f.name) f.contents.toUTF8).isOk := by
    intro f hreach hfree
    rw [withThree_leadsTo.write_join hreach hfree]
    rfl
  obtain ⟨hany, hgenerated⟩ := writeTo_saves withThree_leadsTo hplain
  constructor
  · -- the names that come twice are written twice; the folder `3` stands in the way of the fifth file, and `y` is not
    -- reached
    have haux : ∀ f ∈ clashing.auxFiles, Path.IsPlain f.name := fun f hf =>
      (clashing_reaches f (List.mem_cons_of_mem _ hf)).isName.isPlain
    obtain ⟨-, hblocked⟩ := hany clashing haux fun f hf hfree => hwrite (clashing_reaches f hf) hfree
    obtain ⟨e, t', hsaved, ⟨d', hleads, hget⟩, -⟩ := hblocked [⟨"p.c", "a"⟩, ⟨"x", "b"⟩, ⟨"p.c", "c"⟩, ⟨"x", "d"⟩] ⟨"3", "e"⟩
      [⟨"y", "f"⟩] rfl (by decide) (by decide)
    exact ⟨e, t', d', hsaved, hleads, hget "p.c", hget "x", hget "3", hget "y"⟩
  · -- the numbers of a generated program are below 2, so that none of them is the name of the folder
    obtain ⟨p, hp, hnumbered⟩ : ∃ p, generate twoReading (.ofSeed 3) = .ok p ∧ Numbered 2 p :=
      FileBacked.generate_numbered (.ofSeed 3) rfl (by decide) (by decide)
    obtain ⟨haux, -, hread⟩ := hgenerated _ _ p (Or.inl hp)
    have hfiles : ∀ f ∈ p.files "p", Reaches "." f.name ∧ isFolderAt withThree f.name = false := by
      refine List.forall_mem_cons.mpr ⟨⟨clashing_reaches ⟨"p.c", "a"⟩ List.mem_cons_self, rfl⟩, fun f hf => ?_⟩
      obtain ⟨n, hn, hname⟩ := hnumbered.numbers f hf
      have hfree : ∀ n < 2, isFolderAt withThree (toString n) = false := by decide
      rw [hname]
      exact ⟨reaches_toString (by decide) (by decide) hn, hfree n hn⟩
    obtain ⟨hsaved, -⟩ := hany p haux fun f hf hfree => hwrite (hfiles f hf).1 hfree
    obtain ⟨t', hok, -⟩ := hsaved fun f hf => (hfiles f hf).2
    exact ⟨p, t', hp, hok, hread _ t' hok⟩

end SeedCorpus
