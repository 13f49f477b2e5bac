/-
  A pass over a folder is the fates of its files.

  A pass takes the list of the files first and then changes the folder while it goes through the list.  The fates
  (`QuietFilter.fates`) are those that the files have in the folder as it was before the pass.  The two agree
  (`Underway.run`), since at every file of the list

  - the files that are still to come are as they were, and so are the folders;
  - the other files are just what the files dealt with have left (`Underway`).

  The name that a file gets with the extension comes behind its own in the order of the list.  So if it is taken by a file,
  that file is still to come and still there; and if it is free, then no file dealt with has taken it since, because
  two files never leave one name.
-/
import SeedCorpus.Proofs.Filter.OneFile
import SeedCorpus.Proofs.Folder.Order

namespace SeedCorpus

open SeedCorpus.Folder SeedCorpus.FileTree SeedCorpus.Path

/-! ## What a pass should come to

The report is computed from fates as it is from results, and the fates are those of the files in the folder as it is now. -/

/-- The line of a report for a file with a fate. -/
def progressLine : String × Fate → String
  | (name, { tally := .accepted length, .. }) => name ++ " " ++ toString length ++ "\n"
  | _ => ""

/-- Whether a file is counted as kept. -/
def Tally.isAccepted : Tally → Bool
  | .accepted _ => true
  | _ => false

/-- The report about files with their fates. -/
def Report.ofFates (fates : List (String × Fate)) : Report where
  summary :=
    { accepted := fates.countP (·.2.tally.isAccepted)
      rejected := fates.countP (·.2.tally = .rejected)
      failed := fates.countP (·.2.tally = .failed) }
  progress := String.join (fates.map progressLine)

/-- One more file in a report. -/
theorem Report.ofFates_concat (fates : List (String × Fate)) (name : String) (fate : Fate)
    {result : Except FilterError Outcome} (h : QuietFilter.tallyOf result = fate.tally) :
    Report.ofFates (fates ++ [(name, fate)]) = (Report.ofFates fates).add name result := by
  obtain ⟨tally, left, shown⟩ := fate
  have hjoin : ∀ line,
      String.join (fates.map progressLine ++ [line]) = String.join (fates.map progressLine) ++ line := by
    intro line
    simp [String.join_append, String.join_cons, String.join_nil]
  cases h
  -- each tally adds to one of the counts, and only a file that is kept has a line
  cases result with
  | error cause =>
    simp [Report.ofFates, Report.add, List.countP_append, Tally.isAccepted, progressLine, hjoin]
  | ok outcome =>
    cases outcome <;>
      simp [Report.ofFates, Report.add, List.countP_append, Tally.isAccepted, progressLine, hjoin,
        String.append_assoc]

namespace QuietFilter

/-- Files of a folder with the fates that they have there. -/
def fatesOf (f : QuietFilter) (path : String) (d : Folder) (files : List String) : List (String × Fate) :=
  files.filterMap fun name =>
    match get? d name with
    | some (.file bytes) => some (name, f.fate path d name bytes)
    | _ => none

/-- The files of a folder with their fates, in the order of the names. -/
def fates (f : QuietFilter) (path : String) (d : Folder) : List (String × Fate) := f.fatesOf path d (fileNames d)

variable {f : QuietFilter} {t : FileTree} {path : String} {parts : List String} {d d' : Folder} {name : String}

/-- The fates of some files are those of the ones that are there. -/
theorem mem_fatesOf {files : List String} {e : String × Fate} :
    e ∈ f.fatesOf path d files ↔
      e.1 ∈ files ∧ ∃ bytes, get? d e.1 = some (.file bytes) ∧ e.2 = f.fate path d e.1 bytes := by
  rw [fatesOf, List.mem_filterMap]
  constructor
  · rintro ⟨n, hn, he⟩
    split at he
    · rename_i bytes hg
      cases he
      exact ⟨hn, bytes, hg, rfl⟩
    · cases he
  · rintro ⟨hn, bytes, hg, he⟩
    refine ⟨e.1, hn, ?_⟩
    simp only [hg, ← he]

/-- One more file comes with its fate. -/
theorem fatesOf_concat {bytes : ByteArray} (files : List String) (h : get? d name = some (.file bytes)) :
    f.fatesOf path d (files ++ [name]) = f.fatesOf path d files ++ [(name, f.fate path d name bytes)] := by
  rw [fatesOf, List.filterMap_append]
  congr 1
  simp [h]

/-! ## On the way

The folder changes while the pass goes on, and the fate of a file depends on the folder: on whether its new name is taken.
What has to be shown is that this is as it was before the pass (`contains_target`). -/

/-- A pass over the folder `d` has dealt with the files `done`, and the files `rest` are still to come. -/
structure Underway (f : QuietFilter) (t : FileTree) (path : String) (parts : List String) (d : Folder)
    (done rest : List String) (s : Sifted Report) (d' : Folder) : Prop where
  /-- The path still leads to the folder. -/
  leads : s.files.LeadsTo path parts d'
  /-- Nothing else has changed. -/
  outside : SameOutside t s.files parts
  /-- The folders in it are the same. -/
  folders : SameFolders d d'
  /-- The files to come are as they were. -/
  kept : ∀ n ∈ rest, get? d' n = get? d n
  /-- The other files are those that files dealt with have left. -/
  left : ∀ n ∉ rest, ∀ bytes, get? d' n = some (.file bytes) ↔
    ∃ e ∈ f.fatesOf path d done, e.2.left = some (n, bytes)
  /-- The report is about the files dealt with. -/
  report : s.result = Report.ofFates (f.fatesOf path d done)
  /-- The compiler saw what their fates say. -/
  shown : s.shown = (f.fatesOf path d done).filterMap (·.2.shown)

/-- In front of the first file nothing has been done. -/
theorem Underway.start (h : t.LeadsTo path parts d) (hd : d.Distinct) :
    Underway f t path parts d [] (fileNames d) { result := {}, files := t } d where
  leads := h
  outside := Or.inl rfl
  folders := SameFolders.refl d
  kept _ _ := rfl
  left n hn bytes := by
    refine ⟨fun hg => absurd (hd.mem_fileNames.mpr ⟨bytes, hg⟩) hn, ?_⟩
    rintro ⟨e, he, -⟩
    cases he
  report := rfl
  shown := rfl

/-- A name with an extension comes behind the name. -/
theorem lt_withExtension (extension name : String) : name < withExtension extension name := by
  rw [withExtension, String.append_assoc]
  refine lt_append fun he => ?_
  have hl := congrArg String.length he
  rw [String.length_append] at hl
  have hdot : ".".length = 1 := by decide
  have hempty : "".length = 0 := by decide
  omega

variable {done rest : List String} {s : Sifted Report}

/-- The files listed before one have smaller names. -/
theorem before_of_split (hd : d.Distinct) (hfiles : fileNames d = done ++ name :: rest) {n : String} (hn : n ∈ done) :
    n < name := by
  have hsorted := hd.fileNames_sorted
  rw [hfiles, List.pairwise_append] at hsorted
  exact hsorted.2.2 n hn name List.mem_cons_self

/-- The files listed behind one have greater names. -/
theorem behind_of_split (hd : d.Distinct) (hfiles : fileNames d = done ++ name :: rest) {n : String} (hn : n ∈ rest) :
    name < n := by
  have hsorted := hd.fileNames_sorted
  rw [hfiles, List.pairwise_append, List.pairwise_cons] at hsorted
  exact hsorted.2.1.1 n hn

/-- The files still to come are there before the pass. -/
theorem contains_of_split (hd : d.Distinct) (hfiles : fileNames d = done ++ name :: rest) {n : String}
    (hn : n ∈ name :: rest) : d.contains n := by
  obtain ⟨bytes, hg⟩ := hd.mem_fileNames.mp (hfiles ▸ List.mem_append_right done hn)
  exact Option.isSome_iff_exists.mpr ⟨_, hg⟩

/-- On the way, the name that the next file should get is taken just when it was before the pass. -/
theorem Underway.contains_target (hu : Underway f t path parts d done (name :: rest) s d') (hd : d.Distinct)
    (hfiles : fileNames d = done ++ name :: rest) (hne : f.target name ≠ name) :
    d.contains (f.target name) = d'.contains (f.target name) := by
  have hbehind : name < f.target name := by
    rw [target, targetName_of_ne hne]; exact lt_withExtension _ _
  rw [Bool.eq_iff_iff]
  constructor
  · -- a file with that name is still to come
    intro hc
    obtain ⟨entry, hg⟩ := Option.isSome_iff_exists.mp hc
    cases entry with
    | folder sub => exact Option.isSome_iff_exists.mpr ⟨_, (hu.folders _ sub).mp hg⟩
    | file bytes =>
      have hmem : f.target name ∈ done ++ name :: rest := hfiles ▸ hd.mem_fileNames.mpr ⟨bytes, hg⟩
      have hrest : f.target name ∈ name :: rest := by
        rcases List.mem_append.mp hmem with hdone | hrest
        · exact absurd hbehind (String.lt_asymm (before_of_split hd hfiles hdone))
        · exact hrest
      exact Option.isSome_iff_exists.mpr ⟨_, (hu.kept _ hrest).trans hg⟩
  · -- a file that was left under that name would have been this one
    intro hc
    refine Decidable.byContradiction fun hfree => ?_
    have hnone : get? d (f.target name) = none := Option.not_isSome_iff_eq_none.mp hfree
    obtain ⟨entry, hg⟩ := Option.isSome_iff_exists.mp hc
    cases entry with
    | folder sub => rw [(hu.folders _ sub).mpr hg] at hnone; cases hnone
    | file bytes =>
      have hrest : f.target name ∉ name :: rest := by
        intro hr
        rw [hu.kept _ hr, hnone] at hg
        cases hg
      obtain ⟨e, he, hl⟩ := (hu.left _ hrest bytes).mp hg
      obtain ⟨hdone, bytes', hg', hfate⟩ := mem_fatesOf.mp he
      rw [hfate] at hl
      rcases fate_left hl with hsame | ⟨hwith, -⟩
      · rw [← hsame, hnone] at hg'
        cases hg'
      · rw [target, targetName_of_ne hne] at hwith
        have hname : name = e.1 := withExtension_inj hwith
        exact String.ne_of_lt (before_of_split hd hfiles hdone) hname.symm

/-! ## One more file

The file meets the fate that it has in the folder as it is now, which is the fate that it had before the pass.  What is left
to show is that it takes nothing away from the others. -/

/-- What is left of a file dealt with has neither the name of the next file nor that of what is left of it. -/
theorem left_ne (hd : d.Distinct) (hfiles : fileNames d = done ++ name :: rest) (bytes : ByteArray) {e : String × Fate}
    (he : e ∈ f.fatesOf path d done) {l : String × ByteArray} (hl : e.2.left = some l) :
    l.1 ≠ name ∧ ∀ l', (f.fate path d name bytes).left = some l' → l.1 ≠ l'.1 := by
  obtain ⟨hmem, bytes', hg, hfate⟩ := mem_fatesOf.mp he
  rw [hfate] at hl
  have hlt := before_of_split hd hfiles hmem
  have hcontains : d.contains e.1 := Option.isSome_iff_exists.mpr ⟨_, hg⟩
  have hcontains' := contains_of_split hd hfiles List.mem_cons_self
  -- neither does it have the name of the next file, as that one is there, nor do two files leave one name
  refine ⟨fun hname => ?_, fun l' hl' hname => ?_⟩
  · rcases fate_left hl with hsame | ⟨-, hfree⟩
    · exact String.ne_of_lt hlt (hsame.symm.trans hname)
    · rw [hname, hcontains'] at hfree
      cases hfree
  · exact String.ne_of_lt hlt (fate_left_inj hcontains hcontains' hl hl' hname)

/-- The files that come after one that meets its fate stay as they are. -/
theorem entriesAfter_behind (hd : d.Distinct) (hfiles : fileNames d = done ++ name :: rest) {bytes : ByteArray}
    (look : String → Option Entry) {n : String} (hn : n ∈ rest) :
    entriesAfter look name (f.fate path d name bytes).left n = look n := by
  have hne : n ≠ name := fun he => String.ne_of_lt (behind_of_split hd hfiles hn) he.symm
  -- what is left of the file has its own name or a free one, and the files to come have neither
  cases hl : (f.fate path d name bytes).left with
  | none => rw [entriesAfter, if_neg hne]
  | some l =>
    obtain ⟨m, b⟩ := l
    have hnm : n ≠ m := by
      rintro rfl
      rcases fate_left hl with he | ⟨-, hfree⟩
      · exact hne he
      · rw [contains_of_split hd hfiles (List.mem_cons_of_mem _ hn)] at hfree
        cases hfree
    rw [entriesAfter, if_neg hnm, if_neg hne]

/-- The other files are those that the files dealt with and this one have left. -/
theorem Underway.left_visit (hu : Underway f t path parts d done (name :: rest) s d') (hd : d.Distinct)
    (hfiles : fileNames d = done ++ name :: rest) {bytes : ByteArray} {n : String} (hn : n ∉ rest) (b : ByteArray) :
    entriesAfter (get? d') name (f.fate path d name bytes).left n = some (.file b) ↔
      (∃ e ∈ f.fatesOf path d done, e.2.left = some (n, b)) ∨ (f.fate path d name bytes).left = some (n, b) := by
  have hsame : n = name → ¬ ∃ e ∈ f.fatesOf path d done, e.2.left = some (n, b) := by
    rintro rfl ⟨e, he, hl⟩
    exact (left_ne hd hfiles bytes he hl).1 rfl
  have hother : n ≠ name → (get? d' n = some (.file b) ↔ ∃ e ∈ f.fatesOf path d done, e.2.left = some (n, b)) :=
    fun hne => hu.left n (fun hc => (List.mem_cons.mp hc).elim hne hn) b
  -- nothing is left of the file, or it is left under one name, where nothing else is
  cases hl : (f.fate path d name bytes).left with
  | none =>
    have hnew : ¬ (none : Option (String × ByteArray)) = some (n, b) := (Option.some_ne_none _).symm
    rw [entriesAfter, or_iff_left hnew]
    by_cases hne : n = name
    · rw [if_pos hne]
      exact iff_of_false (Option.some_ne_none _).symm (hsame hne)
    · rw [if_neg hne, hother hne]
  | some l =>
    obtain ⟨m, c⟩ := l
    rw [entriesAfter]
    by_cases hnm : n = m
    · subst hnm
      have hnone : ¬ ∃ e ∈ f.fatesOf path d done, e.2.left = some (n, b) := by
        rintro ⟨e, he, hl'⟩
        exact (left_ne hd hfiles bytes he hl').2 _ hl rfl
      rw [if_pos rfl, or_iff_right hnone]
      exact ⟨fun h => by cases h; rfl, fun h => by cases h; rfl⟩
    · have hnew : ¬ some (m, c) = some (n, b) := fun h => hnm (Prod.mk.inj (Option.some.inj h)).1.symm
      rw [if_neg hnm, or_iff_left hnew]
      by_cases hne : n = name
      · rw [if_pos hne]
        exact iff_of_false (Option.some_ne_none _).symm (hsame hne)
      · rw [if_neg hne, hother hne]

/-- One more file. -/
theorem Underway.visit (hu : Underway f t path parts d done (name :: rest) s d') (h : t.LeadsTo path parts d)
    (hd : d.Distinct) (hfiles : fileNames d = done ++ name :: rest) {bytes : ByteArray}
    (hf : get? d name = some (.file bytes)) (hn : Reaches path name)
    (ht : ∀ text, String.fromUTF8? bytes = some text → f.gates.check text = .ok () → Reaches path (f.target name)) :
    ∃ d'', Underway f t path parts d (done ++ [name]) rest (f.toFilter.visit path s name) d'' := by
  have hf' : get? d' name = some (.file bytes) := (hu.kept name List.mem_cons_self).trans hf
  -- it meets the fate that it has now, and that is the one that it had
  obtain ⟨d'', hm⟩ := processFile_meets hu.leads hn hf' ht
  rw [← fate_congr (hu.contains_target hd hfiles)] at hm
  have hdone : f.fatesOf path d (done ++ [name]) = f.fatesOf path d done ++ [(name, f.fate path d name bytes)] :=
    fatesOf_concat done hf
  refine ⟨d'', ⟨hm.leads, ?_, hu.folders.trans hm.folders, fun n hrest => ?_, fun n hrest b => ?_, ?_, ?_⟩⟩
  · exact hu.outside.trans h hm.outside
  · rw [hm.entries, entriesAfter_behind hd hfiles _ hrest]
    exact hu.kept n (List.mem_cons_of_mem _ hrest)
  · rw [hdone, hm.entries, hu.left_visit hd hfiles hrest]
    simp only [List.mem_append, List.mem_singleton, or_and_right, exists_or, exists_eq_left]
  · rw [hdone, Report.ofFates_concat _ _ _ hm.tally, ← hu.report]
    rfl
  · rw [hdone, List.filterMap_append, ← hu.shown, SeedFilter.visit, hm.shown]
    cases hs : (f.fate path d name bytes).shown <;> simp [hs]

/-- All files that are still to come. -/
theorem Underway.run (h : t.LeadsTo path parts d) (hd : d.Distinct)
    (hnames : ∀ name bytes, get? d name = some (.file bytes) → Reaches path name)
    (hrename : ∀ name bytes text, get? d name = some (.file bytes) → String.fromUTF8? bytes = some text →
      f.gates.check text = .ok () → Reaches path (f.target name)) :
    ∀ (rest done : List String) (s : Sifted Report) (d' : Folder), fileNames d = done ++ rest →
      Underway f t path parts d done rest s d' →
        ∃ d'', Underway f t path parts d (done ++ rest) [] (rest.foldl (f.toFilter.visit path) s) d'' := by
  intro rest
  -- the induction is on the files to come, with what has been done left open
  induction rest with
  | nil =>
    intro done s d' _ hu
    rw [List.append_nil]
    exact ⟨d', hu⟩
  | cons name rest ih =>
    intro done s d' hfiles hu
    obtain ⟨bytes, hf⟩ := hd.mem_fileNames.mp (hfiles ▸ List.mem_append_right done List.mem_cons_self)
    obtain ⟨d₁, hu₁⟩ := hu.visit h hd hfiles hf (hnames name bytes hf)
      fun text hutf hg => hrename name bytes text hf hutf hg
    have hfiles₁ : fileNames d = (done ++ [name]) ++ rest := by rw [hfiles, List.append_assoc]; rfl
    obtain ⟨d₂, hu₂⟩ := ih _ _ d₁ hfiles₁ hu₁
    rw [List.append_assoc] at hu₂
    exact ⟨d₂, hu₂⟩

/-! ## The whole pass

At the end there are no files to come, so that `Underway` is about all of them. -/

/-- A pass over the folder `d` comes out as the fates that its files have there. -/
structure ComesOut (f : QuietFilter) (t : FileTree) (path : String) (d : Folder)
    (pass : Sifted (Except FilterError Report)) : Prop where
  /-- Every file has its fate. -/
  files : ∀ e, e ∈ f.fates path d ↔ ∃ bytes, get? d e.1 = some (.file bytes) ∧ e.2 = f.fate path d e.1 bytes
  /-- The files come once each, in the order of the bytes of their names. -/
  order : ((f.fates path d).map fun e => bytesOf e.1).Pairwise (· < ·)
  /-- The report counts the fates. -/
  report : pass.result = .ok (Report.ofFates (f.fates path d))
  /-- The compiler saw what the fates say, in this order. -/
  shown : pass.shown = (f.fates path d).filterMap (·.2.shown)
  /-- The path leads to a folder with the same folders and the files that the fates leave, and nothing else has
  changed. -/
  left : ∃ parts d', t.LeadsTo path parts d ∧ pass.files.LeadsTo path parts d' ∧ SameOutside t pass.files parts ∧
    SameFolders d d' ∧
      ∀ name bytes, get? d' name = some (.file bytes) ↔ ∃ e ∈ f.fates path d, e.2.left = some (name, bytes)

/-- **A pass over a folder comes out as the fates that its files have in the folder as it is before the pass**, if the files
in it can be reached and can be given their last names where that is due. -/
theorem processFolder_comesOut (f : QuietFilter) (h : t.findFolder path = .ok d)
    (hdev : ∀ place, t.locate path = .ok place → place.parts ≠ ["dev"]) (hd : d.Distinct)
    (hnames : ∀ name bytes, get? d name = some (.file bytes) → Reaches path name)
    (hrename : ∀ name bytes text, get? d name = some (.file bytes) → String.fromUTF8? bytes = some text →
      f.gates.check text = .ok () → Reaches path (f.target name)) :
    ComesOut f t path d (f.toFilter.processFolder t path) := by
  obtain ⟨parts, hleads⟩ := leadsTo_of_findFolder h hdev
  obtain ⟨d', hu⟩ := Underway.run (f := f) hleads hd hnames hrename (fileNames d) [] _ d rfl (Underway.start hleads hd)
  rw [List.nil_append] at hu
  have hpass : f.toFilter.processFolder t path =
      { result := .ok ((fileNames d).foldl (f.toFilter.visit path) { result := {}, files := t }).result
        files := ((fileNames d).foldl (f.toFilter.visit path) { result := {}, files := t }).files
        shown := ((fileNames d).foldl (f.toFilter.visit path) { result := {}, files := t }).shown } := by
    simp only [SeedFilter.processFolder, h]
  rw [hpass]
  refine ⟨fun e => ?_, ?_, congrArg Except.ok hu.report, hu.shown, ?_⟩
  · rw [fates, mem_fatesOf]
    exact ⟨fun he => he.2, fun ⟨bytes, hg, he⟩ => ⟨hd.mem_fileNames.mpr ⟨bytes, hg⟩, bytes, hg, he⟩⟩
  · -- the files are sorted by name, and so are those of them that have fates
    rw [List.pairwise_map]
    refine List.Pairwise.imp (R := fun e e' : String × Fate => e.1 < e'.1) (fun hlt => lt_bytes hlt) ?_
    refine List.Pairwise.filterMap _ (fun a a' hlt e he e' he' => ?_) hd.fileNames_sorted
    have hfirst : ∀ {n : String} {x : String × Fate}, (match get? d n with
        | some (.file bytes) => some (n, f.fate path d n bytes)
        | _ => none) = some x → x.1 = n := by
      intro n x hx
      split at hx <;> cases hx
      rfl
    rw [hfirst he, hfirst he']
    exact hlt
  · exact ⟨parts, d', hleads, hu.leads, hu.outside, hu.folders, fun name bytes => hu.left name nofun bytes⟩

/-- A filter that asks for five characters and one block. -/
def lenient : QuietFilter where
  gates := { minLength := 5, nestingDepth := 1 }
  extension := "c"
  judge _ _ := .ok .accepted
  canonical text := .ok text

/-- Seeds one of which is too short, one has a new name that is taken, and one a new name that is free. -/
def threeSeeds : Folder :=
  [("b", .file "int main() \x7b\x7d".toUTF8), ("c.c", .file .empty), ("a", .file "int a() \x7b\x7d".toUTF8),
    ("a.c", .folder [])]

/-- A pass over such seeds comes out. -/
theorem threeSeeds_comesOut :
    (FileTree.ofFolder [("seeds", .folder threeSeeds)]).findFolder "seeds" = .ok threeSeeds ∧
      ComesOut lenient (.ofFolder [("seeds", .folder threeSeeds)]) "seeds" threeSeeds
        (lenient.toFilter.processFolder (.ofFolder [("seeds", .folder threeSeeds)]) "seeds") := by
  have hd : threeSeeds.Distinct := by unfold Distinct; decide
  -- the names of the files, and those that they may get
  have hreach : ∀ name ∈ ["a", "b", "b.c", "a.c", "c.c"], Reaches "seeds" name := by
    intro name hname
    simp only [List.mem_cons, List.not_mem_nil, or_false] at hname
    rcases hname with rfl | rfl | rfl | rfl | rfl <;>
      exact ⟨⟨by decide, by decide, by decide, by decide, by decide, by decide⟩, by decide⟩
  have hfile : ∀ name bytes, get? threeSeeds name = some (.file bytes) → name ∈ ["a", "b", "c.c"] := by
    intro name bytes hf
    have he := hd.get?_eq_some.mp hf
    simp only [threeSeeds, List.mem_cons, List.not_mem_nil, or_false, Prod.mk.injEq] at he
    rcases he with ⟨rfl, -⟩ | ⟨rfl, -⟩ | ⟨rfl, -⟩ | ⟨-, hfolder⟩
    · decide
    · decide
    · decide
    · cases hfolder
  refine ⟨rfl, processFolder_comesOut lenient rfl ?_ hd (fun name bytes hf => hreach name ?_)
    (fun name bytes text hf _ _ => hreach _ ?_)⟩
  · intro place hplace
    have hseeds : (FileTree.ofFolder [("seeds", .folder threeSeeds)]).locate "seeds" = .ok ⟨["seeds"], false⟩ := rfl
    rw [hseeds] at hplace
    cases hplace
    decide
  · have hmem := hfile name bytes hf
    simp only [List.mem_cons, List.not_mem_nil, or_false] at hmem
    rcases hmem with rfl | rfl | rfl <;> decide
  · have hmem := hfile name bytes hf
    simp only [List.mem_cons, List.not_mem_nil, or_false] at hmem
    rcases hmem with rfl | rfl | rfl <;> decide

end QuietFilter

end SeedCorpus
