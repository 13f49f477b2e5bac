/-
  Batches of programs with input files.

  1. **Names.**  The source of a program is named as the command line says, with a tag in a batch, and the input files are named
     by numbers (`Numbered`).  So no two files of one program have the same name (`Numbered.nodup_files`), and no source
     of a batch has the name of another file.

  2. **Folders.**  To write the programs of a batch is to put all their files into the folder, one program after the other
     (`writePrograms_eq`).  Under a name the file stays that was put last.

  So all sources are kept, and under the name of an input file there is at the end the file of the last program that has one of
  that name (`run_keepsLast`).  As all programs count from zero, input files do get lost (`pair_overwritten`).
-/
import SeedCorpus.CommandLine.Commands
import SeedCorpus.Proofs.Files.Matching
import SeedCorpus.Proofs.Folder.Writing

namespace SeedCorpus

open SeedCorpus.Random (Source)
open SeedCorpus.Folder SeedCorpus.FileTree SeedCorpus.Path

/-! ## Numbers as names

Input files are named by numbers.  Such a name can be used anywhere: it is made of digits, so that it holds no dot and no
slash, and it is short, as the numbers are below the number of functions. -/

/-- A text of characters of one byte has as many bytes as characters. -/
theorem utf8ByteSize_ofList {l : List Char} (h : ∀ c ∈ l, c.utf8Size = 1) : (String.ofList l).utf8ByteSize = l.length := by
  induction l with
  | nil => rfl
  | cons c l ih =>
    rw [String.ofList_cons, String.utf8ByteSize_append, String.utf8ByteSize_singleton, h c List.mem_cons_self,
      ih fun d hd => h d (List.mem_cons_of_mem c hd), List.length_cons, Nat.add_comm]

/-- A number of few digits is a short text. -/
theorem utf8ByteSize_toString {n : Nat} (h : n < 10 ^ 10) : (toString n).utf8ByteSize ≤ 10 := by
  have hascii : ∀ c ∈ (toString n).toList, c.utf8Size = 1 := by
    intro c hc
    have hdigit := isDigit_of_mem_toString hc
    rw [Char.isDigit, Bool.and_eq_true, decide_eq_true_eq, decide_eq_true_eq] at hdigit
    exact Char.utf8Size_eq_one_iff.mpr (UInt32.le_trans hdigit.2 (by decide))
  rw [← String.ofList_toList (s := toString n), utf8ByteSize_ofList hascii]
  exact (Nat.length_repr_le_iff (by decide)).mpr h

/-- A number is not written with a character that is no digit. -/
theorem notMem_toString {n : Nat} {c : Char} (h : c.isDigit = false) : c ∉ (toString n).toList := by
  intro hc
  rw [isDigit_of_mem_toString hc] at h
  cases h

/-- A number is a name, however long it is. -/
theorem isPlain_toString (n : Nat) : Path.IsPlain (toString n) where
  nonempty he := by
    have hpos : 0 < (toString n).length := Nat.length_repr_pos
    rw [he] at hpos
    exact absurd hpos (by decide)
  notDot he := notMem_toString (n := n) (c := '.') (by decide) (by rw [he]; decide)
  notDots he := notMem_toString (n := n) (c := '.') (by decide) (by rw [he]; decide)
  noSlash := notMem_toString (by decide)

/-- A number of few digits is a name that the file system takes. -/
theorem isName_toString {n : Nat} (h : n < 10 ^ 10) : IsName (toString n) where
  nonempty := (isPlain_toString n).nonempty
  notDot := (isPlain_toString n).notDot
  notDots := (isPlain_toString n).notDots
  noSlash := (isPlain_toString n).noSlash
  noNul := notMem_toString (by decide)
  short := Nat.le_trans (utf8ByteSize_toString h) (by decide)

/-- A path with a name behind it is longer by the name and a slash. -/
theorem utf8ByteSize_join (path : String) {name : String} (h : '/' ∉ name.toList) :
    (join path name).utf8ByteSize ≤ path.utf8ByteSize + 1 + name.utf8ByteSize := by
  have hslash : "/".utf8ByteSize = 1 := by decide
  unfold join
  rw [isAbsolute_eq_false h, if_neg Bool.false_ne_true]
  -- there is a slash already, or one is put in between
  split
  · rw [String.utf8ByteSize_append]
    omega
  · rw [String.utf8ByteSize_append, String.utf8ByteSize_append]
    omega

/-- The numbers of functions can be used behind a path that leaves room for them. -/
theorem reaches_toString {path : String} (room : path.utf8ByteSize + 11 ≤ maxBytes) {size n : Nat}
    (fits : size * size < 2 ^ 63) (hn : n < size) : Reaches path (toString n) := by
  have hsmall : n < 10 ^ 10 := by
    -- the square of the number of functions fits into a word, so the number has ten digits at most
    have hsquare : n * n < 2 ^ 63 := Nat.lt_of_le_of_lt (Nat.mul_le_mul (Nat.le_of_lt hn) (Nat.le_of_lt hn)) fits
    refine Nat.lt_of_not_le fun hge => ?_
    exact absurd (Nat.mul_le_mul hge hge) (Nat.not_le.mpr (Nat.lt_trans hsquare (by decide)))
  have hname := isName_toString hsmall
  have hshort := utf8ByteSize_toString hsmall
  have hjoin := utf8ByteSize_join path hname.noSlash
  exact ⟨hname, by omega⟩

/-- The name of a source is not a number. -/
theorem source_ne_toString (name : String) (n : Nat) : name ++ ".c" ≠ toString n := by
  intro he
  have hdot : '.' ∈ (name ++ ".c").toList := by
    rw [String.toList_append]
    exact List.mem_append_right _ (by decide)
  rw [he] at hdot
  exact notMem_toString (by decide) hdot

/-! ## The files of one program

What is used of a program below is only that it is `Numbered`; where the numbers come from does not matter. -/

/-- The input files of a program are named by different numbers of functions. -/
structure Numbered (size : Nat) (p : Program) : Prop where
  /-- The numbers. -/
  numbers : ∀ f ∈ p.auxFiles, ∃ n < size, f.name = toString n
  /-- They are different. -/
  distinct : (p.auxFiles.map (·.name)).Nodup

/-- Every program that works on files comes out, with input files that are named by different numbers. -/
theorem FileBacked.generate_numbered {config : SynthesisConfig} (g : Source) (hflat : config.strategy = .flat)
    (pos : 0 < config.functions) (fits : config.functions * config.functions < 2 ^ 63) :
    ∃ p, generate config g = .ok p ∧ Numbered config.functions p := by
  obtain ⟨a, sketch, inputs, p, -, hp, hcomes⟩ := generate_comes g hflat pos fits
  have hmatches := hcomes.matchesFiles
  obtain ⟨numbers, -, hsmall, hnames⟩ := hmatches.named
  refine ⟨p, hp, fun f hf => ?_, hmatches.distinct⟩
  have hname := List.mem_map_of_mem (f := (·.name)) hf
  rw [hnames] at hname
  obtain ⟨n, hn, he⟩ := List.mem_map.mp hname
  exact ⟨n, hsmall n hn, he.symm⟩

/-- No two files of a program have one name, if its input files are named by different numbers. -/
theorem Program.nodup_files {p : Program} (hnumbers : ∀ f ∈ p.auxFiles, ∃ n : Nat, f.name = toString n)
    (hdistinct : (p.auxFiles.map (·.name)).Nodup) (name : String) : ((p.files name).map (·.name)).Nodup := by
  refine List.nodup_cons.mpr ⟨fun hm => ?_, hdistinct⟩
  obtain ⟨f, hf, he⟩ := List.mem_map.mp hm
  obtain ⟨n, hn⟩ := hnumbers f hf
  exact source_ne_toString name n (he.symm.trans hn)

/-- No two files of such a program have one name, its source among them. -/
theorem Numbered.nodup_files {size : Nat} {p : Program} (h : Numbered size p) (name : String) :
    ((p.files name).map (·.name)).Nodup := by
  refine Program.nodup_files (fun f hf => ?_) h.distinct name
  obtain ⟨n, -, hn⟩ := h.numbers f hf
  exact ⟨n, hn⟩

namespace CommandLine.Generation

variable {g : Generation} {chance : Chance} {c : SynthesisConfig} {t : FileTree} {parts : List String} {d : Folder}

/-! ## The files of a batch

A batch asks for programs by number, and each number has a seed of its own.  What is drawn for it is a function `program` of
the number, so that the files of the whole batch can be written down as one list. -/

/-- The files of the program of a number. -/
def filesOf (g : Generation) (chance : Chance) (program : Nat → Program) (k : Nat) : List AuxFile :=
  (program k).files (g.programName chance k)

/-- The first program is made and written, and then the others. -/
theorem writePrograms_succ (g : Generation) (chance : Chance) (c : SynthesisConfig) (t : FileTree) (first count : Nat) :
    writePrograms g chance c t first (count + 1) = match writeProgram g chance c t first with
      | (.ok _, t) => writePrograms g chance c t (first + 1) count
      | (.error e, t) => (.error e, t) := rfl

/-- The files of the programs of a batch are put into the folder, those of one program after those of the other. -/
theorem writePrograms_eq {program : Nat → Program}
    (hmade : ∀ k, generate c (Source.ofSeed (programSeed c chance k)) = .ok (program k)) (count : Nat) :
    ∀ {t : FileTree} {d : Folder} (first : Nat), t.LeadsTo g.outDir parts d → OnlyFiles d →
    (∀ k, first ≤ k → k < first + count → ∀ f ∈ g.filesOf chance program k, Reaches g.outDir f.name) →
    ∃ t', writePrograms g chance c t first count = (.ok (), t') ∧
      t'.LeadsTo g.outDir parts (putAll d ((List.range' first count).flatMap (g.filesOf chance program))) ∧
      SameOutside t t' parts := by
  induction count with
  | zero => exact fun first h _ _ => ⟨_, rfl, h, Or.inl rfl⟩
  | succ count ih =>
    intro t d first h hd hreach
    -- the first program is written, after which there are still only files in the folder
    obtain ⟨t₁, hwrite, hleads, honly, houtside⟩ := h.writeFiles (g.filesOf chance program first) hd
      (hreach first (Nat.le_refl _) (by omega))
    obtain ⟨t', hrest, hleads', houtside'⟩ := ih (first + 1) hleads honly
      fun k hle hlt => hreach k (by omega) (by omega)
    -- the program of the first number is the one that is made
    have hone : writeProgram g chance c t first =
        (.ok (join g.outDir (g.programName chance first ++ ".c")), t₁) := by
      rw [writeProgram, hmade first]
      exact Program.writeTo_ok hwrite
    refine ⟨t', ?_, ?_, SameOutside.trans h houtside houtside'⟩
    · rw [writePrograms_succ, hone]
      exact hrest
    · rw [List.range'_succ, List.flatMap_cons, putAll_append]
      exact hleads'

/-- A command that writes programs with input files into a folder that can take them. -/
structure FillsFolder (g : Generation) (chance : Chance) (t : FileTree) (c : SynthesisConfig) (d : Folder) : Prop where
  /-- The settings. -/
  settings : (g.settings t).map g.override = .ok c
  /-- The programs work on files. -/
  flat : c.strategy = .flat
  /-- They have functions. -/
  pos : 0 < c.functions
  /-- The square of the number of functions is a number of the program. -/
  fits : c.functions * c.functions < 2 ^ 63
  /-- The folder. -/
  folder : t.findFolder g.outDir = .ok d
  /-- It is not the folder of the devices. -/
  noDevices : ∀ place, t.locate g.outDir = .ok place → place.parts ≠ ["dev"]
  /-- No folder is in it. -/
  onlyFiles : d.OnlyFiles
  /-- The names of the sources can be used. -/
  sources : ∀ k < g.count, Reaches g.outDir (g.programName chance k ++ ".c")
  /-- The names of the input files are not too long. -/
  room : g.outDir.utf8ByteSize + 11 ≤ maxBytes
  /-- No tag comes twice. -/
  tags : ∀ j < g.count, ∀ k < g.count, chance.tag j = chance.tag k → j = k

namespace FillsFolder

/-- The programs of a batch have different names. -/
theorem programName_inj (h : g.FillsFolder chance t c d) {j k : Nat} (hj : j < g.count) (hk : k < g.count)
    (he : g.programName chance j = g.programName chance k) : j = k := by
  unfold programName at he
  split at he
  · omega
  · exact h.tags j hj k hk ((String.append_right_inj _).mp he)

/-- The settings have been read, and the options of the command override them. -/
theorem settings_eq (h : g.FillsFolder chance t c d) : ∃ c₀, g.settings t = .ok c₀ ∧ g.override c₀ = c := by
  have hmap := h.settings
  cases hs : g.settings t with
  | error e => rw [hs] at hmap; cases hmap
  | ok c₀ => rw [hs] at hmap; cases hmap; exact ⟨c₀, rfl, rfl⟩

/-- The names of all files can be used. -/
theorem reaches (h : g.FillsFolder chance t c d) {program : Nat → Program}
    (hn : ∀ k, Numbered c.functions (program k)) {k : Nat} (hk : k < g.count) {f : AuxFile}
    (hf : f ∈ g.filesOf chance program k) : Reaches g.outDir f.name := by
  rcases List.mem_cons.mp hf with rfl | hf
  · exact h.sources k hk
  · obtain ⟨n, hn, hname⟩ := (hn k).numbers f hf
    rw [hname]
    exact reaches_toString h.room h.fits hn

end FillsFolder

/-- What a batch leaves: the programs have been made, and their files have been put into the folder, one after the other. -/
structure Leaves (g : Generation) (chance : Chance) (t : FileTree) (c : SynthesisConfig) (d : Folder)
    (program : Nat → Program) (t' : FileTree) : Prop where
  /-- The programs. -/
  made : ∀ k, generate c (Source.ofSeed (programSeed c chance k)) = .ok (program k)
  /-- Their input files are named by numbers. -/
  numbered : ∀ k, Numbered c.functions (program k)
  /-- The folder. -/
  folder : ∃ parts, t.LeadsTo g.outDir parts d ∧ SameOutside t t' parts ∧
    t'.LeadsTo g.outDir parts (putAll d ((List.range g.count).flatMap (g.filesOf chance program)))

/-- A batch does what it was told. -/
theorem FillsFolder.run_leaves (h : g.FillsFolder chance t c d) :
    ∃ program t', g.run chance t = (.done "" none, t') ∧ g.Leaves chance t c d program t' := by
  -- for every number of a program there is one that comes out
  obtain ⟨program, hprogram⟩ := Classical.axiomOfChoice fun k =>
    FileBacked.generate_numbered (Source.ofSeed (programSeed c chance k)) h.flat h.pos h.fits
  have hnumbered : ∀ k, Numbered c.functions (program k) := fun k => (hprogram k).2
  obtain ⟨parts, hleads⟩ := leadsTo_of_findFolder h.folder h.noDevices
  obtain ⟨t', hwrite, hleads', houtside⟩ := writePrograms_eq (fun k => (hprogram k).1) g.count 0 hleads h.onlyFiles
    fun k _ hk f hf => h.reaches hnumbered (by omega) hf
  rw [← List.range_eq_range'] at hleads'
  refine ⟨program, t', ?_, fun k => (hprogram k).1, hnumbered, parts, hleads, houtside, hleads'⟩
  -- so the command goes through: settings, folder, programs
  obtain ⟨c₀, hsettings, rfl⟩ := h.settings_eq
  have hfound : (!(t.findFolder g.outDir).isOk) = false := by
    rw [h.folder]
    rfl
  simp only [run, hsettings, hfound, hwrite, Bool.false_eq_true, if_false]

/-- Under the name of a file there is the last one of that name. -/
theorem Leaves.read_last {program : Nat → Program} {t' : FileTree} (hl : g.Leaves chance t c d program t')
    (h : g.FillsFolder chance t c d) {k : Nat} (hk : k < g.count) {f : AuxFile} (hf : f ∈ g.filesOf chance program k) :
    ∃ last kept, k ≤ last ∧ last < g.count ∧ kept ∈ g.filesOf chance program last ∧ kept.name = f.name ∧
      t'.read (join g.outDir f.name) = .ok kept.contents.toUTF8 ∧
      ∀ j, last < j → j < g.count → f.name ∉ (g.filesOf chance program j).map (·.name) := by
  obtain ⟨parts, -, -, hleads⟩ := hl.folder
  -- no name comes twice within a program, so that the last file of a name is that of the last program that has one
  obtain ⟨last, kept, hle, hlast, hkept, hname, hget, hlater⟩ :=
    get?_putAll_last (d := d) (fun k => (hl.numbered k).nodup_files (g.programName chance k)) hk
      (List.mem_map_of_mem (f := (·.name)) hf)
  exact ⟨last, kept, hle, hlast, hkept, hname, hleads.read_join (h.reaches hl.numbered hk hf) hget, hlater⟩

end CommandLine.Generation

open SeedCorpus.CommandLine

/-- **After a batch all sources are there, and under the name of an input file there is the file of the last program that has
one of that name.**  Nothing outside the folder has changed. -/
theorem run_keepsLast {g : Generation} {chance : Chance} {t : FileTree} {c : SynthesisConfig} {d : Folder}
    (h : g.FillsFolder chance t c d) :
    ∃ (program : Nat → Program) (t' : FileTree), g.run chance t = (.done "" none, t') ∧
      (∀ k, generate c (Source.ofSeed (Generation.programSeed c chance k)) = .ok (program k)) ∧
      (∀ k < g.count, t'.read (join g.outDir (g.programName chance k ++ ".c")) = .ok (program k).source.toUTF8) ∧
      (∀ k < g.count, ∀ f ∈ (program k).auxFiles, ∃ last kept, k ≤ last ∧ last < g.count ∧
        kept ∈ (program last).auxFiles ∧ kept.name = f.name ∧
        t'.read (join g.outDir f.name) = .ok kept.contents.toUTF8 ∧
        ∀ j, last < j → j < g.count → f.name ∉ (program j).auxFiles.map (·.name)) ∧
      ∃ parts, t.LeadsTo g.outDir parts d ∧ SameOutside t t' parts := by
  obtain ⟨program, t', hrun, hl⟩ := h.run_leaves
  obtain ⟨parts, hleads, houtside, -⟩ := hl.folder
  refine ⟨program, t', hrun, hl.made, fun k hk => ?_, fun k hk f hf => ?_, parts, hleads, houtside⟩
  · obtain ⟨last, kept, -, hlast, hkept, hname, hread, -⟩ := hl.read_last h hk List.mem_cons_self
    rw [hread]
    -- a file of that name is the source of a program, which is this one, or an input file, which has a number for a name
    rcases List.mem_cons.mp hkept with rfl | hkept
    · rw [h.programName_inj hlast hk ((String.append_left_inj _).mp hname)]
    · obtain ⟨n, -, hn⟩ := (hl.numbered last).numbers kept hkept
      exact absurd (hname.symm.trans hn) (source_ne_toString _ n)
  · obtain ⟨last, kept, hle, hlast, hkept, hname, hread, hlater⟩ := hl.read_last h hk (List.mem_cons_of_mem _ hf)
    refine ⟨last, kept, hle, hlast, ?_, hname, hread, fun j hj hj' hm => hlater j hj hj' (List.mem_cons_of_mem _ hm)⟩
    rcases List.mem_cons.mp hkept with rfl | hkept
    · obtain ⟨n, -, hn⟩ := (hl.numbered k).numbers f hf
      exact absurd (hname.trans hn) (source_ne_toString _ n)
    · exact hkept

/-! ## A file that is lost

Two programs of one function each, in a folder that is empty.  Each of them reads a file of the number 0, and they have drawn
different contents for it. -/

/-- The words that ask for two programs of one function each. -/
def pairWords : List String :=
  ["p", "1", "--strategy", "flat", "--seed", "3", "--statements", "1", "--count", "2"]

/-- What they ask for. -/
def pair : Generation :=
  { name := "p", size := 1, strategy := some .flat, seed := some 3, statements := some 1, count := 2 }

/-- Tags that are numbers. -/
def countingTags : Chance := { tag := fun k => toString k, seed := fun k => k }

/-- The words are read as this command. -/
theorem pairWords_read : Generation.grammar.read {} pairWords = .ok pair := by
  -- what is read is compared as a value, as a refusal would not be decidable
  have hread : (Generation.grammar.read {} pairWords).toOption = some pair := by decide +kernel
  cases h : Generation.grammar.read {} pairWords with
  | error stop => rw [h] at hread; cases hread
  | ok g => rw [h] at hread; cases hread; rfl

/-- The folder is empty, and everything that is asked for fits. -/
theorem pair_fillsFolder : pair.FillsFolder countingTags (.ofFolder []) (pair.override {}) [] where
  settings := rfl
  flat := rfl
  pos := by decide
  fits := by decide
  folder := rfl
  noDevices place hplace := by
    have hhere : (FileTree.ofFolder []).locate "." = .ok ⟨[], true⟩ := rfl
    rw [show pair.outDir = "." from rfl, hhere] at hplace
    cases hplace
    decide
  onlyFiles := onlyFiles_nil
  sources k hk := by
    -- there are two sources
    have hcases : k = 0 ∨ k = 1 := by
      have hlt : k < 2 := hk
      omega
    rcases hcases with rfl | rfl <;>
      exact ⟨⟨by decide, by decide, by decide, by decide, by decide, by decide⟩, by decide⟩
  room := by decide
  tags j _ k _ h := toString_injective h

/-- Under the names of the input files of the two there is in each case the last one of that name. -/
theorem pair_keepsLast : ∃ (program : Nat → Program) (t' : FileTree),
    pair.run countingTags (.ofFolder []) = (.done "" none, t') ∧
      ∀ k < 2, ∀ f ∈ (program k).auxFiles, ∃ last kept, k ≤ last ∧ last < 2 ∧ kept ∈ (program last).auxFiles ∧
        kept.name = f.name ∧ t'.read (join "." f.name) = .ok kept.contents.toUTF8 := by
  obtain ⟨program, t', hrun, -, -, hinputs, -⟩ := run_keepsLast pair_fillsFolder
  refine ⟨program, t', hrun, fun k hk f hf => ?_⟩
  obtain ⟨last, kept, hle, hlast, hkept, hname, hread, -⟩ := hinputs k hk f hf
  exact ⟨last, kept, hle, hlast, hkept, hname, hread⟩

/-- The input files of the two programs have one name and different contents. -/
theorem pair_drawn : (generate (pair.override {}) (.ofSeed 3)).toOption.map (·.auxFiles) =
      some [{ name := "0", contents := "0\n" }] ∧
    (generate (pair.override {}) (.ofSeed 4)).toOption.map (·.auxFiles) =
      some [{ name := "0", contents := "1\n" }] := by
  decide +kernel

/-- **An input file of a program is lost to the next program of the batch.**  No other program takes part in this, so that it
is so on every system. -/
theorem pair_overwritten : ∃ (p : Program) (t' : FileTree),
    (∀ [Programs], execute? "cseed-gen" pairWords countingTags (.ofFolder []) = some (.done "" none, t')) ∧
      generate (pair.override {}) (.ofSeed 3) = .ok p ∧
      ∃ f ∈ p.auxFiles, t'.read (join pair.outDir f.name) ≠ .ok f.contents.toUTF8 := by
  obtain ⟨program, t', hrun, hl⟩ := pair_fillsFolder.run_leaves
  have hmade : generate (pair.override {}) (.ofSeed 3) = .ok (program 0) := hl.made 0
  have hmade' : generate (pair.override {}) (.ofSeed 4) = .ok (program 1) := hl.made 1
  obtain ⟨hfirst, hsecond⟩ := pair_drawn
  rw [hmade] at hfirst
  rw [hmade'] at hsecond
  have hfiles : (program 0).auxFiles = [{ name := "0", contents := "0\n" }] := Option.some.inj hfirst
  have hfiles' : (program 1).auxFiles = [{ name := "0", contents := "1\n" }] := Option.some.inj hsecond
  have hf : ({ name := "0", contents := "0\n" } : AuxFile) ∈ (program 0).auxFiles := by
    rw [hfiles]
    exact List.mem_cons_self
  have hf' : ({ name := "0", contents := "1\n" } : AuxFile) ∈ (program 1).auxFiles := by
    rw [hfiles']
    exact List.mem_cons_self
  refine ⟨program 0, t', ?_, hmade, _, hf, ?_⟩
  · intro _
    show some (Generation.grammar.execute _ _ _ _ _) = _
    rw [Grammar.execute, pairWords_read]
    exact congrArg some hrun
  · obtain ⟨last, kept, -, hlast, hkept, hname, hread, hlater⟩ :=
      hl.read_last pair_fillsFolder (show 0 < 2 by decide) (List.mem_cons_of_mem _ hf)
    -- the second program has a file of the name, so that the file that is kept is one of its own
    have hone : last = 1 := by
      have hlt : last < 2 := hlast
      have hnot : ¬ last < 1 := fun hlt => hlater 1 hlt (by decide)
        (List.mem_map_of_mem (f := (·.name)) (List.mem_cons_of_mem _ hf'))
      omega
    subst hone
    rw [hread]
    rcases List.mem_cons.mp hkept with rfl | hkept
    · exact absurd hname (source_ne_toString _ 0)
    · rw [hfiles'] at hkept
      obtain rfl := List.mem_singleton.mp hkept
      intro he
      -- and the contents are not those of the first
      exact absurd (Except.ok.inj he) (by decide +kernel)

end SeedCorpus
