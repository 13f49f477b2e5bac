/-
  A second pass changes nothing.

  A filter settles (`QuietFilter.Settles`) when its compiler goes by what a file holds, and the normal form of a text that
  is let through exists, is let through as well and is its own normal form.  After a pass of such a filter that could deal
  with every file, another pass keeps every file as it is and under its name (`processFolder_again`).

  1. A pass without a failure has read every file and has given every file that needed one its last name; so all names could
     be used (`Underway.reaches`), and the pass comes out as the fates of the files.
  2. A file that the pass has left is one that was kept.  It has its last name, because nothing is left to be put behind it
     (`targetName_targetName`), and holds a normal form, so it is kept again and as it is (`fate_of_left`).
  3. No two files were left under one name, hence as many are kept again as were kept (`length_leftNames`).

  That no name comes twice in a folder is needed for the second pass as well as for the first.  It holds of tidy trees, and
  a pass leaves a tree tidy (`tidy_processFolder`).
-/
import SeedCorpus.Proofs.Filter.Pass
import SeedCorpus.Proofs.Folder.Tidy

namespace SeedCorpus

open SeedCorpus.Folder SeedCorpus.FileTree SeedCorpus.Path

/-! ## Last names

The extension of a name is what stands behind its last dot.  If the extension that is put behind a name holds a dot itself,
only a part of it is found there again, and the next pass would put it behind once more. -/

/-- A name with an extension that has no dot in it carries that extension. -/
theorem extensionOf_withExtension {extension name : String} (hdot : '.' ∉ extension.toList) (hn : Path.IsPlain name) :
    extensionOf (withExtension extension name) = some extension := by
  have hlist : (withExtension extension name).toList.reverse = extension.toList.reverse ++ '.' :: name.toList.reverse := by
    simp [withExtension]
  have hfree : ∀ c ∈ extension.toList.reverse, (c ≠ '.' : Bool) := by
    intro c hc
    have hne : c ≠ '.' := fun he => hdot (he ▸ List.mem_reverse.mp hc)
    simpa using hne
  have hname : name.toList ≠ [] := fun he => hn.nonempty (String.toList_eq_nil_iff.mp he)
  have hdots : withExtension extension name ≠ ".." := by
    -- two dots would be the dot with nothing behind it
    intro he
    have hrev := congrArg (fun s : String => s.toList.reverse) he
    have hdd : "..".toList.reverse = ['.', '.'] := rfl
    simp only [hlist, hdd] at hrev
    cases hx : extension.toList.reverse with
    | nil =>
      rw [hx, List.nil_append] at hrev
      have hone : name.toList.reverse = ['.'] := (List.cons.inj hrev).2
      have hsingle : name.toList = ['.'] := List.reverse_eq_iff.mp hone
      exact hn.notDot (String.toList_injective (by rw [hsingle]; rfl))
    | cons c rest =>
      rw [hx, List.cons_append] at hrev
      have hc : c = '.' := (List.cons.inj hrev).1
      exact hdot (List.mem_reverse.mp (hx ▸ hc ▸ List.mem_cons_self))
  -- read from the end, the extension goes up to the first dot
  have htake : (extension.toList.reverse ++ '.' :: name.toList.reverse).takeWhile (· ≠ '.') = extension.toList.reverse := by
    rw [List.takeWhile_append_of_pos hfree]
    simp
  have hdrop : (extension.toList.reverse ++ '.' :: name.toList.reverse).dropWhile (· ≠ '.') = '.' :: name.toList.reverse := by
    rw [List.dropWhile_append_of_pos hfree]
    simp
  simp only [extensionOf, hlist, htake, hdrop]
  simp [hdots, hname]

/-- A file that has its last name keeps it. -/
theorem targetName_targetName {extension name : String} (hdot : '.' ∉ extension.toList) (hn : Path.IsPlain name) :
    targetName extension (targetName extension name) = targetName extension name := by
  by_cases he : extensionOf name = some extension
  · have hsame : targetName extension name = name := by rw [targetName, if_pos he]
    rw [hsame, hsame]
  · have hwith : targetName extension name = withExtension extension name := by rw [targetName, if_neg he]
    rw [hwith, targetName, if_pos (extensionOf_withExtension hdot hn)]

namespace QuietFilter

variable {f : QuietFilter} {t : FileTree} {path : String} {parts : List String} {d d' : Folder} {name : String}
  {bytes : ByteArray}

/-! ## A pass without a failure

Nothing is asked of the names in a folder, so that some of them may be too long behind the path.  Such a file fails; if none
has failed, then all names could be used. -/

/-- A file that could be dealt with was read, and it was given its last name if it was shown to the compiler. -/
theorem reaches_of_processFile (hslash : '/' ∉ f.extension.toList) (h : t.LeadsTo path parts d) (hn : IsName name)
    (hf : get? d name = some (.file bytes)) {outcome : Outcome}
    (hok : (f.toFilter.processFile t (join path name)).result = .ok outcome) :
    Reaches path name ∧
      ∀ text, String.fromUTF8? bytes = some text → f.gates.check text = .ok () → Reaches path (f.target name) := by
  -- if a name could not be used, then nothing would have been done, and that is a failure
  rcases f.toFilter.reaches_or_stops hslash h hn hf with hreach | ⟨cause, hstops⟩
  · exact hreach
  · rw [hstops] at hok
    cases hok

/-- One more file leaves the failures that were counted, and its own is counted. -/
theorem failed_add (r : Report) (name : String) (result : Except FilterError Outcome) :
    r.summary.failed ≤ (r.add name result).summary.failed ∧
      ((r.add name result).summary.failed = 0 → ∃ outcome, result = .ok outcome) := by
  cases result with
  | error cause => exact ⟨Nat.le_succ _, nofun⟩
  | ok outcome => cases outcome <;> exact ⟨Nat.le_refl _, fun _ => ⟨_, rfl⟩⟩

/-- Failures are only ever added. -/
theorem failed_le_foldl (rest : List String) : ∀ s : Sifted Report,
    s.result.summary.failed ≤ (rest.foldl (f.toFilter.visit path) s).result.summary.failed := by
  induction rest with
  | nil => exact fun s => Nat.le_refl _
  | cons name rest ih =>
    intro s
    exact Nat.le_trans (failed_add s.result name _).1 (ih (f.toFilter.visit path s name))

/-- If a pass counts no failure, then all names that it had to use could be used. -/
theorem Underway.reaches (hslash : '/' ∉ f.extension.toList) (h : t.LeadsTo path parts d) (hd : d.Distinct)
    (hnames : ∀ name bytes, get? d name = some (.file bytes) → IsName name) :
    ∀ (rest done : List String) (s : Sifted Report) (d' : Folder), fileNames d = done ++ rest →
      Underway f t path parts d done rest s d' →
      (rest.foldl (f.toFilter.visit path) s).result.summary.failed = 0 →
        ∀ name ∈ rest, ∀ bytes, get? d name = some (.file bytes) → Reaches path name ∧
          ∀ text, String.fromUTF8? bytes = some text → f.gates.check text = .ok () → Reaches path (f.target name) := by
  intro rest
  -- the induction is on the files to come, along the pass: up to the next file it comes out as it should
  induction rest with
  | nil => exact fun _ _ _ _ _ _ name hm => absurd hm List.not_mem_nil
  | cons next rest ih =>
    intro done s d' hfiles hu hclean name hm bytes hf
    obtain ⟨bytes', hf'⟩ := hd.mem_fileNames.mp (hfiles ▸ List.mem_append_right done List.mem_cons_self)
    -- the failures counted up to the next file are among all of them
    have hzero : (f.toFilter.visit path s next).result.summary.failed = 0 :=
      Nat.le_zero.mp (Nat.le_trans (failed_le_foldl rest _) (Nat.le_of_eq hclean))
    obtain ⟨outcome, hok⟩ := (failed_add s.result next _).2 hzero
    have hnow : get? d' next = some (.file bytes') := (hu.kept next List.mem_cons_self).trans hf'
    have hreach := reaches_of_processFile hslash hu.leads (hnames next bytes' hf') hnow hok
    rcases List.mem_cons.mp hm with rfl | hrest
    · rw [hf'] at hf
      cases hf
      exact hreach
    · obtain ⟨d₁, hu₁⟩ := hu.visit h hd hfiles hf' hreach.1 hreach.2
      have hfiles₁ : fileNames d = (done ++ [next]) ++ rest := by
        rw [hfiles, List.append_assoc]
        rfl
      exact ih (done ++ [next]) _ d₁ hfiles₁ hu₁ hclean name hrest bytes hf

/-! ## Tidy trees

The steps about a file remove it, rename it or write it, and each of these leaves the tree tidy. -/

/-- A file is removed, or it is not. -/
theorem tidy_discard (h : t.root.Tidy) (p : String) (reason : Rejection) : (discard t p reason).2.root.Tidy := by
  unfold discard
  split
  · rename_i t' hok
    exact tidy_of_remove h hok
  · exact h

/-- A file gets its last name, or it has it already. -/
theorem tidy_ensureExtension (h : t.root.Tidy) {extension p : String} {renamed : String × FileTree}
    (hok : ensureExtension extension t p = .ok renamed) : renamed.2.root.Tidy := by
  unfold ensureExtension at hok
  dsimp only at hok
  split at hok
  · cases hok
    exact h
  · split at hok
    · cases hok
    · split at hok
      · rename_i t' hren
        cases hok
        exact tidy_of_rename h hren
      · cases hok

/-- The compiler and the canonicalizer are asked, and the file is removed or written over. -/
theorem tidy_judge (h : t.root.Tidy) (p text : String) : (f.toFilter.judge t p text).2.root.Tidy := by
  -- the tools leave the tree as it is
  have hjudge : f.toFilter.compiler t p = (f.judge p ((t.read p).toOption.getD .empty), t) := rfl
  have hcanonical : f.toFilter.canonicalizer t text = (f.canonical text, t) := rfl
  have hcanonicalize : (f.toFilter.canonicalize t p text).2.root.Tidy := by
    unfold SeedFilter.canonicalize
    rw [hcanonical]
    cases f.canonical text with
    | error cause => exact h
    | ok canonical =>
      dsimp only
      split
      · rename_i t' hok
        exact tidy_of_write h hok
      · exact h
  unfold SeedFilter.judge
  rw [hjudge]
  cases f.judge p ((t.read p).toOption.getD .empty) with
  | error cause => exact h
  | ok verdict =>
    cases verdict with
    | rejected => exact tidy_discard h p .compileFailed
    | timedOut => exact tidy_discard h p .compileTimedOut
    | accepted => exact hcanonicalize

/-- A file is dealt with, and the tree stays tidy. -/
theorem tidy_processFile (h : t.root.Tidy) (p : String) : (f.toFilter.processFile t p).files.root.Tidy := by
  unfold SeedFilter.processFile
  split
  · exact h
  · split
    · exact tidy_discard h p .notUtf8
    · split
      · exact tidy_discard h p _
      · split
        · exact h
        · rename_i renamed t' hens
          exact tidy_judge (tidy_ensureExtension h hens) _ _

/-- A pass leaves a tidy tree tidy. -/
theorem tidy_processFolder (h : t.root.Tidy) (p : String) : (f.toFilter.processFolder t p).files.root.Tidy := by
  have hrun : ∀ (rest : List String) (s : Sifted Report), s.files.root.Tidy →
      (rest.foldl (f.toFilter.visit p) s).files.root.Tidy := by
    intro rest
    -- file by file
    induction rest with
    | nil => exact fun _ hs => hs
    | cons name rest ih => exact fun s hs => ih _ (tidy_processFile hs (join p name))
  unfold SeedFilter.processFolder
  split
  · exact h
  · exact hrun _ _ h

/-! ## Files that are kept

What becomes of a file is looked at twice: as it was, and as it was left. -/

/-- The compiler goes by what a file holds; and of a text that is let through by the gates and the compiler there is a
normal form, which is let through as well and is its own normal form. -/
structure Settles (f : QuietFilter) : Prop where
  /-- The path makes no difference to the compiler. -/
  content : ∀ p q bytes, f.judge p bytes = f.judge q bytes
  /-- Normal forms are let through and stay as they are. -/
  stable : ∀ p text, f.gates.check text = .ok () → f.judge p text.toUTF8 = .ok .accepted →
    ∃ normal, f.canonical text = .ok normal ∧ f.gates.check normal = .ok () ∧
      f.judge p normal.toUTF8 = .ok .accepted ∧ f.canonical normal = .ok normal

/-- A file that was left and did not fail was shown to the compiler under its last name and holds the normal form now. -/
theorem left_of_fate {left : String × ByteArray} (hl : (f.fate path d name bytes).left = some left)
    (ht : (f.fate path d name bytes).tally ≠ .failed) :
    left.1 = f.target name ∧ ∃ text normal, bytes = text.toUTF8 ∧ f.gates.check text = .ok () ∧
      f.judge (join path left.1) bytes = .ok .accepted ∧ f.canonical text = .ok normal ∧ left.2 = normal.toUTF8 := by
  rcases f.fate_cases path d name bytes with hfate | hfate | ⟨text, hbytes, hgates, -, hfate⟩ <;> rw [hfate] at hl ht
  · cases hl
  · exact absurd rfl ht
  · rcases f.fateShown_cases path (f.target name) text bytes with hfate | hfate | ⟨normal, hjudge, hcanon, hfate⟩ <;>
      rw [hfate] at hl ht
    · exact absurd rfl ht
    · cases hl
    · cases hl
      exact ⟨rfl, text, normal, hbytes, hgates, hjudge, hcanon, rfl⟩

/-- What was left without a failure is kept by the next pass, and as it is. -/
theorem fate_of_left (hset : f.Settles) (hdot : '.' ∉ f.extension.toList) (hn : Path.IsPlain name) {left : String × ByteArray}
    (hl : (f.fate path d name bytes).left = some left) (ht : (f.fate path d name bytes).tally ≠ .failed) :
    (f.fate path d' left.1 left.2).left = some left ∧ (f.fate path d' left.1 left.2).tally.isAccepted ∧
      f.target left.1 = left.1 := by
  obtain ⟨htarget, text, normal, rfl, hg, hjudge, hcanon, hbytes⟩ := left_of_fate hl ht
  obtain ⟨normal', hnormal, hg', hjudge', hcanon'⟩ := hset.stable _ text hg hjudge
  rw [hcanon] at hnormal
  cases hnormal
  have hlast : f.target left.1 = left.1 := by
    rw [htarget, target, target, targetName_targetName hdot hn]
  have hutf : String.fromUTF8? left.2 = some normal := fromUTF8?_eq_some_iff.mpr hbytes
  -- the name is free for the file, as it is its own
  have hstays : ¬ (f.target left.1 ≠ left.1 ∧ d'.contains (f.target left.1) = true) := fun hc => hc.1 hlast
  have hshown : f.judge (join path left.1) left.2 = .ok .accepted := by rw [hbytes, hjudge']
  have hfate : f.fate path d' left.1 left.2 =
      { tally := .accepted normal.length, left := some (left.1, normal.toUTF8),
        shown := some (join path left.1, left.2) } := by
    rw [fate, hutf]
    dsimp only
    rw [hg']
    dsimp only
    rw [if_neg hstays, hlast, fateShown]
    simp only [hshown, hcanon']
  refine ⟨?_, ?_, hlast⟩
  · rw [hfate, ← hbytes]
  · rw [hfate]
    rfl

/-! ## How many files are left

A file that is kept is left under one name, one that is removed is not left.  So the names that are left can be counted
instead of the files that are kept. -/

/-- The names under which files are left. -/
def leftNames (fates : List (String × Fate)) : List String := fates.filterMap fun e => e.2.left.map (·.1)

/-- If no file failed, the files left are as many as the files kept. -/
theorem length_leftNames {fates : List (String × Fate)} (hclean : ∀ e ∈ fates, e.2.tally ≠ .failed)
    (hleft : ∀ e ∈ fates, e.2.left.isSome = true ↔ e.2.tally ≠ .rejected) :
    (leftNames fates).length = fates.countP (·.2.tally.isAccepted) := by
  induction fates with
  | nil => rfl
  | cons e fates ih =>
    have htail := ih (fun x hx => hclean x (List.mem_cons_of_mem e hx)) fun x hx => hleft x (List.mem_cons_of_mem e hx)
    have hhead := hleft e List.mem_cons_self
    have hfailed := hclean e List.mem_cons_self
    -- the first file is removed, or it is left and counted
    cases ht : e.2.tally with
    | failed => exact absurd ht hfailed
    | rejected =>
      have hnone : e.2.left = none := by
        rw [ht] at hhead
        exact Option.not_isSome_iff_eq_none.mp fun hs => (hhead.mp hs) rfl
      rw [leftNames, List.filterMap_cons_none (by rw [hnone]; rfl), List.countP_cons_of_neg (by rw [ht]; nofun)]
      exact htail
    | accepted length =>
      have hsome : e.2.left.isSome := hhead.mpr (by rw [ht]; nofun)
      obtain ⟨l, hl⟩ := Option.isSome_iff_exists.mp hsome
      rw [leftNames, List.filterMap_cons_some (by rw [hl]; rfl), List.length_cons,
        List.countP_cons_of_pos (by rw [ht]; rfl)]
      exact congrArg (· + 1) htail

/-- A file is left unless it is removed. -/
theorem fate_left_isSome (f : QuietFilter) (path : String) (d : Folder) (name : String) (bytes : ByteArray) :
    (f.fate path d name bytes).left.isSome = true ↔ (f.fate path d name bytes).tally ≠ .rejected := by
  -- every branch says both, what is left and how it is counted
  unfold fate
  split
  · simp
  · split
    · simp
    · split
      · simp
      · unfold fateShown
        dsimp only
        split
        · simp
        · simp
        · simp
        · split <;> simp

/-! ## The folder between two passes

The first pass leaves a folder whose files are all steady.  The second pass goes over them, and the names that it leaves are
those that it has found. -/

variable {fates : List (String × Fate)} {s : Sifted Report}

/-- The names that are left are those under which some file is. -/
theorem mem_leftNames : name ∈ leftNames fates ↔ ∃ bytes, ∃ e ∈ fates, e.2.left = some (name, bytes) := by
  rw [leftNames, List.mem_filterMap]
  constructor
  · rintro ⟨e, he, hname⟩
    obtain ⟨⟨n, b⟩, hl, rfl⟩ := Option.map_eq_some_iff.mp hname
    exact ⟨b, e, he, hl⟩
  · rintro ⟨b, e, he, hl⟩
    exact ⟨e, he, by rw [hl]; rfl⟩

/-- The fates in a folder are those of its files. -/
theorem mem_fates (hd : d.Distinct) {e : String × Fate} :
    e ∈ f.fates path d ↔ ∃ bytes, get? d e.1 = some (.file bytes) ∧ e.2 = f.fate path d e.1 bytes := by
  rw [fates, mem_fatesOf]
  refine ⟨And.right, ?_⟩
  rintro ⟨bytes, hf, he⟩
  exact ⟨hd.mem_fileNames.mpr ⟨bytes, hf⟩, bytes, hf, he⟩

/-- No two files are left under one name. -/
theorem nodup_leftNames (hd : d.Distinct) : (leftNames (f.fates path d)).Nodup := by
  -- the files themselves are different
  have hdistinct : (f.fates path d).Pairwise fun e e' => e.1 ≠ e'.1 := by
    rw [fates, fatesOf, List.pairwise_filterMap]
    refine hd.fileNames_sorted.imp fun {n n'} hlt e he e' he' => ?_
    have hfirst : e.1 = n := by
      split at he <;> cases he
      rfl
    have hsecond : e'.1 = n' := by
      split at he' <;> cases he'
      rfl
    rw [hfirst, hsecond]
    exact String.ne_of_lt hlt
  rw [leftNames, List.Nodup, List.pairwise_filterMap]
  refine hdistinct.imp_of_mem fun {e e'} he he' hne n hn n' hn' hsame => ?_
  obtain ⟨l, hl, rfl⟩ := Option.map_eq_some_iff.mp hn
  obtain ⟨l', hl', rfl⟩ := Option.map_eq_some_iff.mp hn'
  obtain ⟨bytes, hg, hfate⟩ := (mem_fates hd).mp he
  obtain ⟨bytes', hg', hfate'⟩ := (mem_fates hd).mp he'
  rw [hfate] at hl
  rw [hfate'] at hl'
  exact hne (fate_left_inj (Option.isSome_iff_exists.mpr ⟨_, hg⟩) (Option.isSome_iff_exists.mpr ⟨_, hg'⟩) hl hl' hsame)

/-- If no file failed, as many were kept as are left. -/
theorem length_left (hd : d.Distinct) (hclean : ∀ e ∈ f.fates path d, e.2.tally ≠ .failed) :
    (leftNames (f.fates path d)).length = (f.fates path d).countP (·.2.tally.isAccepted) := by
  refine length_leftNames hclean fun e he => ?_
  obtain ⟨bytes, -, hfate⟩ := (mem_fates hd).mp he
  rw [hfate]
  exact fate_left_isSome f path d e.1 bytes

/-- A file that another pass keeps as it is. -/
structure Steady (f : QuietFilter) (path name : String) (bytes : ByteArray) : Prop where
  /-- Its name can be used. -/
  reaches : Reaches path name
  /-- It is its last name. -/
  last : f.target name = name
  /-- It is left as it is. -/
  left : ∀ d, (f.fate path d name bytes).left = some (name, bytes)
  /-- It is kept. -/
  kept : ∀ d, (f.fate path d name bytes).tally.isAccepted = true

/-- A pass over a folder goes through its files. -/
theorem processFolder_eq (h : t.findFolder path = .ok d) :
    f.toFilter.processFolder t path =
      { result := .ok ((fileNames d).foldl (f.toFilter.visit path) { result := {}, files := t }).result
        files := ((fileNames d).foldl (f.toFilter.visit path) { result := {}, files := t }).files
        shown := ((fileNames d).foldl (f.toFilter.visit path) { result := {}, files := t }).shown } := by
  simp only [SeedFilter.processFolder, h]

/-- If a pass counts no failure, then no file in it failed, and another pass keeps what is left as it is. -/
theorem steady_of_clean (hset : f.Settles) (hdot : '.' ∉ f.extension.toList) (hslash : '/' ∉ f.extension.toList)
    (h : t.LeadsTo path parts d) (hd : d.Distinct)
    (hnames : ∀ name bytes, get? d name = some (.file bytes) → IsName name)
    (hs : s = (fileNames d).foldl (f.toFilter.visit path) { result := {}, files := t })
    (hclean : s.result.summary.failed = 0) :
    (∃ d', Underway f t path parts d (fileNames d) [] s d') ∧ (∀ e ∈ f.fates path d, e.2.tally ≠ .failed) ∧
      ∀ e ∈ f.fates path d, ∀ left, e.2.left = some left → f.Steady path left.1 left.2 := by
  have hreach : ∀ name bytes, get? d name = some (.file bytes) → Reaches path name ∧
      ∀ text, String.fromUTF8? bytes = some text → f.gates.check text = .ok () → Reaches path (f.target name) := by
    intro name bytes hf
    exact Underway.reaches hslash h hd hnames (fileNames d) [] _ d rfl (Underway.start h hd) (hs ▸ hclean) name
      (hd.mem_fileNames.mpr ⟨bytes, hf⟩) bytes hf
  obtain ⟨d', hu⟩ := Underway.run h hd (fun name bytes hf => (hreach name bytes hf).1)
    (fun name bytes text hf hutf hg => (hreach name bytes hf).2 text hutf hg) (fileNames d) [] _ d rfl
    (Underway.start h hd)
  rw [List.nil_append, ← hs] at hu
  -- what is counted as failed is none of them
  have hfates : ∀ e ∈ f.fates path d, e.2.tally ≠ .failed := by
    intro e he hfailed
    rw [hu.report] at hclean
    exact List.countP_eq_zero.mp hclean e he (decide_eq_true hfailed)
  refine ⟨⟨d', hu⟩, hfates, fun e he left hl => ?_⟩
  obtain ⟨bytes, hf, hfate⟩ := (mem_fates hd).mp he
  have hok := hfates e he
  rw [hfate] at hl hok
  obtain ⟨htarget, text, normal, hbytes, hg, -⟩ := left_of_fate hl hok
  -- so a file that was left was kept, and is kept again
  have hagain : ∀ d', (f.fate path d' left.1 left.2).left = some left ∧
      (f.fate path d' left.1 left.2).tally.isAccepted ∧ f.target left.1 = left.1 :=
    fun _ => fate_of_left hset hdot (hnames e.1 bytes hf).isPlain hl hok
  refine ⟨?_, (hagain d).2.2, fun d' => (hagain d').1, fun d' => (hagain d').2.1⟩
  rw [htarget]
  exact (hreach e.1 bytes hf).2 text (fromUTF8?_eq_some_iff.mpr hbytes) hg

/-- If all files in a folder are kept as they are, then a file was left in it just when it is in it. -/
theorem left_of_steady (hd : d.Distinct)
    (hsteady : ∀ name bytes, get? d name = some (.file bytes) → f.Steady path name bytes) :
    (∃ e ∈ f.fates path d, e.2.left = some (name, bytes)) ↔ get? d name = some (.file bytes) := by
  constructor
  · rintro ⟨e, he, hl⟩
    obtain ⟨content, hf, hfate⟩ := (mem_fates hd).mp he
    rw [hfate, (hsteady e.1 content hf).left d] at hl
    cases hl
    exact hf
  · intro hf
    exact ⟨(name, f.fate path d name bytes), (mem_fates hd).mpr ⟨bytes, hf, rfl⟩, (hsteady name bytes hf).left d⟩

/-- A folder is told by what its names stand for, files and folders apart. -/
theorem get?_congr (hfolders : SameFolders d d')
    (hfiles : ∀ name bytes, get? d' name = some (.file bytes) ↔ get? d name = some (.file bytes)) (name : String) :
    get? d' name = get? d name := by
  refine Option.ext fun entry => ?_
  cases entry with
  | file bytes => exact hfiles name bytes
  | folder sub => exact (hfolders name sub).symm

/-- A pass over files that it keeps as they are leaves the folder as it is and keeps all of them. -/
theorem pass_of_steady (h : t.LeadsTo path parts d) (hd : d.Distinct)
    (hsteady : ∀ name bytes, get? d name = some (.file bytes) → f.Steady path name bytes)
    (hs : s = (fileNames d).foldl (f.toFilter.visit path) { result := {}, files := t }) :
    s.result = Report.ofFates (f.fates path d) ∧ (∀ e ∈ f.fates path d, e.2.tally.isAccepted = true) ∧
      ∃ d', s.files.LeadsTo path parts d' ∧ SameOutside t s.files parts ∧ ∀ name, get? d' name = get? d name := by
  obtain ⟨d', hu⟩ : ∃ d', Underway f t path parts d ([] ++ fileNames d) [] s d' := by
    rw [hs]
    refine Underway.run h hd (fun name bytes hf => (hsteady name bytes hf).reaches) (fun name bytes text hf _ _ => ?_)
      (fileNames d) [] _ d rfl (Underway.start h hd)
    -- no file needs another name
    rw [(hsteady name bytes hf).last]
    exact (hsteady name bytes hf).reaches
  rw [List.nil_append] at hu
  refine ⟨hu.report, fun e he => ?_, d', hu.leads, hu.outside, get?_congr hu.folders fun n b => ?_⟩
  · obtain ⟨bytes, hf, hfate⟩ := (mem_fates hd).mp he
    rw [hfate]
    exact (hsteady e.1 bytes hf).kept d
  · rw [hu.left n List.not_mem_nil b]
    exact left_of_steady hd hsteady

/-- A pass that keeps all files, of a folder in which a pass without a failure has left them, keeps as many as that one. -/
theorem countP_of_left (hd : d.Distinct) (hclean : ∀ e ∈ f.fates path d, e.2.tally ≠ .failed) (hd' : d'.Distinct)
    (hsteady : ∀ name bytes, get? d' name = some (.file bytes) → f.Steady path name bytes)
    (hleft : ∀ name bytes, get? d' name = some (.file bytes) ↔ ∃ e ∈ f.fates path d, e.2.left = some (name, bytes)) :
    (f.fates path d').countP (·.2.tally.isAccepted) = (f.fates path d).countP (·.2.tally.isAccepted) := by
  have hclean' : ∀ e ∈ f.fates path d', e.2.tally ≠ .failed := by
    intro e he hfailed
    obtain ⟨bytes, hf, hfate⟩ := (mem_fates hd').mp he
    have haccepted := (hsteady e.1 bytes hf).kept d'
    rw [← hfate, hfailed] at haccepted
    cases haccepted
  -- the names left by the second pass are those left by the first
  have hperm : (leftNames (f.fates path d')).Perm (leftNames (f.fates path d)) := by
    refine (List.perm_ext_iff_of_nodup (nodup_leftNames hd') (nodup_leftNames hd)).mpr fun name => ?_
    rw [mem_leftNames, mem_leftNames]
    refine exists_congr fun bytes => ?_
    rw [left_of_steady hd' hsteady]
    exact hleft name bytes
  calc (f.fates path d').countP (·.2.tally.isAccepted)
      = (leftNames (f.fates path d')).length := (length_left hd' hclean').symm
    _ = (leftNames (f.fates path d)).length := hperm.length_eq
    _ = (f.fates path d).countP (·.2.tally.isAccepted) := length_left hd hclean

/-- The summary of a pass that keeps all files. -/
theorem summary_of_accepted (h : ∀ e ∈ fates, e.2.tally.isAccepted = true) :
    (Report.ofFates fates).summary =
      { accepted := fates.countP (·.2.tally.isAccepted), rejected := 0, failed := 0 } := by
  have hrejected : fates.countP (·.2.tally = .rejected) = 0 := by
    refine List.countP_eq_zero.mpr fun e he hr => ?_
    have haccepted := h e he
    rw [of_decide_eq_true hr] at haccepted
    cases haccepted
  have hfailed : fates.countP (·.2.tally = .failed) = 0 := by
    refine List.countP_eq_zero.mpr fun e he hr => ?_
    have haccepted := h e he
    rw [of_decide_eq_true hr] at haccepted
    cases haccepted
  show ({ accepted := _, rejected := _, failed := _ } : Summary) = _
  rw [hrejected, hfailed]

/-! ## Two passes

The first pass is described by `steady_of_clean`, the second by `pass_of_steady`, and `countP_of_left` compares the counts. -/

/-- **Another pass changes nothing.**  If the filter settles, its extension holds neither a dot nor a slash, and the first
pass over a folder counts no failure, then the second pass leaves every name and all that stands under it as it is, and
reports the files that the first one kept as kept, none as removed and none as failed. -/
theorem processFolder_again (f : QuietFilter) (hset : f.Settles) (hdot : '.' ∉ f.extension.toList)
    (hslash : '/' ∉ f.extension.toList) (htidy : t.root.Tidy) (h : t.findFolder path = .ok d)
    (hdev : ∀ place, t.locate path = .ok place → place.parts ≠ ["dev"])
    (hnames : ∀ name bytes, get? d name = some (.file bytes) → IsName name) {report : Report}
    (hreport : (f.toFilter.processFolder t path).result = .ok report) (hclean : report.summary.failed = 0) :
    ∃ again, (f.toFilter.processFolder (f.toFilter.processFolder t path).files path).result = .ok again ∧
      again.summary = { accepted := report.summary.accepted, rejected := 0, failed := 0 } ∧
      ∃ parts d₁ d₂, (f.toFilter.processFolder t path).files.LeadsTo path parts d₁ ∧
        (f.toFilter.processFolder (f.toFilter.processFolder t path).files path).files.LeadsTo path parts d₂ ∧
        SameOutside (f.toFilter.processFolder t path).files
          (f.toFilter.processFolder (f.toFilter.processFolder t path).files path).files parts ∧
        ∀ name, get? d₂ name = get? d₁ name := by
  obtain ⟨parts, hleads⟩ := leadsTo_of_findFolder h hdev
  have hd : d.Distinct := (htidy.entryAt parts (folderAt_eq_ok.mp hleads.folder)).distinct
  have htidy₁ : (f.toFilter.processFolder t path).files.root.Tidy := tidy_processFolder htidy path
  rw [processFolder_eq h] at hreport htidy₁ ⊢
  generalize hs : (fileNames d).foldl (f.toFilter.visit path) { result := {}, files := t } = s at hreport htidy₁ ⊢
  dsimp only at hreport htidy₁ ⊢
  have hsame : s.result = report := Except.ok.inj hreport
  obtain ⟨⟨d₁, hu⟩, hfates, hsteady⟩ :=
    steady_of_clean hset hdot hslash hleads hd hnames hs.symm (hsame ▸ hclean)
  -- the second pass starts from the folder that the first one has left
  have hd₁ : d₁.Distinct := (htidy₁.entryAt parts (folderAt_eq_ok.mp hu.leads.folder)).distinct
  have hsteady₁ : ∀ name bytes, get? d₁ name = some (.file bytes) → f.Steady path name bytes := by
    intro name bytes hf
    obtain ⟨e, he, hl⟩ := (hu.left name List.not_mem_nil bytes).mp hf
    exact hsteady e he _ hl
  rw [processFolder_eq hu.leads.findFolder]
  generalize hs₂ : (fileNames d₁).foldl (f.toFilter.visit path) { result := {}, files := s.files } = s₂
  obtain ⟨hreport₂, hkept, d₂, hleads₂, houtside, hentries⟩ := pass_of_steady hu.leads hd₁ hsteady₁ hs₂.symm
  refine ⟨s₂.result, rfl, ?_, parts, d₁, d₂, hu.leads, hleads₂, houtside, hentries⟩
  have hcount : (f.fates path d₁).countP (·.2.tally.isAccepted) = report.summary.accepted := by
    rw [countP_of_left hd hfates hd₁ hsteady₁ (hu.left · List.not_mem_nil), ← hsame, hu.report]
    rfl
  rw [hreport₂, summary_of_accepted hkept, hcount]

/-- A program in one line. -/
def bareMain : String := "int main() \x7b\x7d"

/-- A filter that compiles one program only, and ends its line. -/
def ending : QuietFilter where
  gates := { minLength := 5, nestingDepth := 1 }
  extension := "c"
  judge _ bytes := .ok (if bytes = bareMain.toUTF8 ∨ bytes = (bareMain ++ "\n").toUTF8 then .accepted else .rejected)
  canonical text := .ok (if text = bareMain then bareMain ++ "\n" else text)

/-- The program is compiled with its line ended and without, and an ended line stays as it is. -/
theorem ending_settles : ending.Settles where
  content _ _ _ := rfl
  stable p text hg hj := by
    by_cases ht : text = bareMain
    · refine ⟨bareMain ++ "\n", congrArg Except.ok (if_pos ht), rfl, rfl, ?_⟩
      exact congrArg Except.ok (if_neg (by decide))
    · have hsame : ending.canonical text = .ok text := congrArg Except.ok (if_neg ht)
      exact ⟨text, hsame, hg, hj, hsame⟩

/-- Seeds two of which are kept, one of them under a new name, one is too short and one does not compile. -/
def fourSeeds : Folder :=
  [("a", .file bareMain.toUTF8), ("b", .file .empty), ("c.c", .file (bareMain ++ "\n").toUTF8),
    ("d", .file "int d() \x7b\x7d".toUTF8), ("e", .folder [])]

theorem fileNames_fourSeeds : fileNames fourSeeds = ["a", "b", "c.c", "d"] := by
  have hfiles : (fourSeeds.filter fun e => e.2.isFile).map (·.1) = ["a", "b", "c.c", "d"] := rfl
  -- the names are in order already, so that nothing has to be sorted
  have hsorted : (["a", "b", "c.c", "d"] : List String).Pairwise fun a b => decide (a ≤ b) := by decide
  rw [fileNames, Folder.names, hfiles, List.mergeSort_of_pairwise hsorted]

theorem fourSeeds_distinct : fourSeeds.Distinct := by unfold Distinct; decide

theorem fourSeeds_tidy : (FileTree.ofFolder [("seeds", .folder fourSeeds)]).root.Tidy := by
  have hempty : Tidy [] := .intro List.nodup_nil nofun
  have hseeds : Tidy fourSeeds := by
    refine .intro fourSeeds_distinct fun name sub h => ?_
    have he := fourSeeds_distinct.get?_eq_some.mp h
    simp only [fourSeeds, List.mem_cons, List.not_mem_nil, or_false, Prod.mk.injEq, reduceCtorEq, and_false, false_or,
      Entry.folder.injEq] at he
    rw [he.2]
    exact hempty
  have houter : Distinct [("seeds", Entry.folder fourSeeds)] := by unfold Distinct; decide
  refine .intro houter fun name sub h => ?_
  have he := houter.get?_eq_some.mp h
  simp only [List.mem_singleton, Prod.mk.injEq, Entry.folder.injEq] at he
  rw [he.2]
  exact hseeds

/-- After a pass that has kept two of them, another one keeps these two. -/
theorem fourSeeds_again :
    ∃ again, (ending.toFilter.processFolder (ending.toFilter.processFolder (.ofFolder [("seeds", .folder fourSeeds)])
        "seeds").files "seeds").result = .ok again ∧ again.summary = { accepted := 2, rejected := 0, failed := 0 } := by
  have hfirst : (ending.toFilter.processFolder (.ofFolder [("seeds", .folder fourSeeds)]) "seeds").result =
      .ok { summary := { accepted := 2, rejected := 2, failed := 0 }, progress := "a 13\nc.c 14\n" } := by
    rw [processFolder_eq (d := fourSeeds) rfl, fileNames_fourSeeds]
    rfl
  have hdev : ∀ place, (FileTree.ofFolder [("seeds", .folder fourSeeds)]).locate "seeds" = .ok place →
      place.parts ≠ ["dev"] := by
    intro place hplace
    have hseeds : (FileTree.ofFolder [("seeds", .folder fourSeeds)]).locate "seeds" = .ok ⟨["seeds"], false⟩ := rfl
    rw [hseeds] at hplace
    cases hplace
    decide
  have hnames : ∀ name bytes, get? fourSeeds name = some (.file bytes) → IsName name := by
    intro name bytes hf
    have hmem : name ∈ ["a", "b", "c.c", "d"] :=
      fileNames_fourSeeds ▸ fourSeeds_distinct.mem_fileNames.mpr ⟨bytes, hf⟩
    simp only [List.mem_cons, List.not_mem_nil, or_false] at hmem
    rcases hmem with rfl | rfl | rfl | rfl <;> exact ⟨by decide, by decide, by decide, by decide, by decide, by decide⟩
  obtain ⟨again, hresult, hsummary, -⟩ := processFolder_again ending ending_settles (by decide) (by decide)
    fourSeeds_tidy rfl hdev hnames hfirst rfl
  exact ⟨again, hresult, hsummary⟩

end QuietFilter

end SeedCorpus
