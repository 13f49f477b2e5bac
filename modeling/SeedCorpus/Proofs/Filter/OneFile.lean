/-
  One file meets its fate.

  The steps that are taken about a file read it, remove it, rename it, show it to the compiler and write it.  Each is a step
  on the folder that the path leads to; together they bring about the fate of the file and leave everything else as it was
  (`Meets`, `processFile_meets`).

  1. **Names.**  A name can be too long behind the path, so that a file cannot be read, or cannot be given its last name.
     Then nothing is done about it (`reaches_or_stops`), and everything below is about names that can be used.
  2. **The last name.**  A file gets it if it is free (`ensureExtension_free`), and stops if it is taken
     (`ensureExtension_taken`).
  3. **What comes behind.**  A file is removed (`discard_meets`), it stays (`stay_meets`), or the compiler sees it
     (`judge_meets`).  A file that gets its last name is in the place of its fate from then on, so this is stated for the
     new name and carried back (`Meets.renamed`).
-/
import SeedCorpus.Proofs.Filter.Fate
import SeedCorpus.Proofs.Folder.View

namespace SeedCorpus

open SeedCorpus.Folder SeedCorpus.FileTree SeedCorpus.Path

/-! ## Steps that cannot be taken

The tree takes no name that is too long, and no path either.  The program does not ask for that in advance: it tries, and
fails. -/

/-- A file can be read, and if the gates let it through it can be given its last name; or nothing is done about it. -/
theorem SeedFilter.reaches_or_stops (f : SeedFilter) {t : FileTree} {path name : String} {parts : List String} {d : Folder}
    {bytes : ByteArray} (hslash : '/' ∉ f.extension.toList) (h : t.LeadsTo path parts d) (hn : IsName name)
    (hf : get? d name = some (.file bytes)) :
    (Reaches path name ∧ ∀ text, String.fromUTF8? bytes = some text → f.gates.check text = .ok () →
      Reaches path (targetName f.extension name)) ∨
    ∃ cause, f.processFile t (join path name) = { result := .error cause, files := t } := by
  cases hread : t.read (join path name) with
  | error e => exact .inr ⟨.unreadable (join path name), by simp only [processFile, hread]⟩
  | ok content =>
    have hname := h.reaches_of_read hn hread
    by_cases hall : ∀ text, String.fromUTF8? bytes = some text → f.gates.check text = .ok () →
        Reaches path (targetName f.extension name)
    · exact .inl ⟨hname, hall⟩
    refine .inr ?_
    simp only [Classical.not_forall] at hall
    obtain ⟨text, hutf, hgates, hlong⟩ := hall
    -- the name that cannot be used is not the name of the file, which has been read under it
    have hne : targetName f.extension name ≠ name := fun he => hlong (he.symm ▸ hname)
    have hwith := targetName_of_ne hne
    have hcarries : carries f.extension (join path name) = false := by
      rw [carries_join h.nonempty hn, decide_eq_false fun he => hne (by rw [targetName, if_pos he])]
    cases hens : ensureExtension f.extension t (join path name) with
    | error cause => exact ⟨cause, by simp only [processFile, h.read_join hname hf, hutf, hgates, hens]⟩
    | ok renamed =>
      -- a name that is given can be used
      unfold ensureExtension at hens
      rw [hcarries, withExtension_join hn, ← hwith] at hens
      simp only [Bool.false_eq_true, if_false] at hens
      split at hens
      · cases hens
      · split at hens
        · rename_i t' hrename
          rw [hwith] at hrename hlong
          exact absurd (h.reaches_of_rename (isPlain_withExtension hslash hn.isPlain) hrename) hlong
        · cases hens

namespace QuietFilter

variable {f : QuietFilter} {path name : String} {d d' : Folder} {bytes : ByteArray}

/-! ## The steps that are taken

What a fate leaves in a folder is told by a look-up (`entriesAfter`), as it is used for folders that were changed in
different ways. -/

/-- How a result is counted. -/
def tallyOf : Except FilterError Outcome → Tally
  | .ok (.accepted _ length) => .accepted length
  | .ok (.rejected _) => .rejected
  | .error _ => .failed

/-- A result that is counted as a failure is one. -/
theorem eq_error_of_tally {result : Except FilterError Outcome} (h : tallyOf result = .failed) :
    ∃ cause, result = .error cause := by
  match result with
  | .error cause => exact ⟨cause, rfl⟩
  | .ok (.accepted p length) => cases h
  | .ok (.rejected reason) => cases h

/-- A result that is counted as a removal is one. -/
theorem eq_rejected_of_tally {result : Except FilterError Outcome} (h : tallyOf result = .rejected) :
    ∃ reason, result = .ok (.rejected reason) := by
  match result with
  | .error cause => cases h
  | .ok (.accepted p length) => cases h
  | .ok (.rejected reason) => exact ⟨reason, rfl⟩

/-- A result that is counted as kept is an acceptance of so many characters. -/
theorem eq_accepted_of_tally {result : Except FilterError Outcome} {length : Nat} (h : tallyOf result = .accepted length) :
    ∃ p, result = .ok (.accepted p length) := by
  match result with
  | .error cause => cases h
  | .ok (.accepted p length) =>
    cases h
    exact ⟨p, rfl⟩
  | .ok (.rejected reason) => cases h

/-- The entries of a folder in which a file met its fate. -/
def entriesAfter (look : String → Option Entry) (name : String) (left : Option (String × ByteArray)) (n : String) :
    Option Entry :=
  match left with
  | some (m, bytes) => if n = m then some (.file bytes) else if n = name then none else look n
  | none => if n = name then none else look n

/-- A step on a tree has brought about a fate of a file of the folder to which the path leads. -/
structure Meets (t : FileTree) (path : String) (parts : List String) (d : Folder) (name : String) (fate : Fate)
    (step : Sifted (Except FilterError Outcome)) (d' : Folder) : Prop where
  /-- The path leads to the folder afterwards. -/
  leads : step.files.LeadsTo path parts d'
  /-- Nothing else has changed. -/
  outside : SameOutside t step.files parts
  /-- The folders in it are the same. -/
  folders : SameFolders d d'
  /-- Its entries are those that the fate leaves. -/
  entries : ∀ n, get? d' n = entriesAfter (get? d) name fate.left n
  /-- The compiler saw what the fate says. -/
  shown : step.shown = fate.shown.toList
  /-- The file is counted as the fate says. -/
  tally : tallyOf step.result = fate.tally

variable {t : FileTree} {parts : List String}

/-- A file that stays as it is changes nothing. -/
theorem entriesAfter_self (hf : get? d name = some (.file bytes)) (n : String) :
    entriesAfter (get? d) name (some (name, bytes)) n = get? d n := by
  rw [entriesAfter]
  by_cases hn : n = name
  · rw [if_pos hn, hn, hf]
  · rw [if_neg hn, if_neg hn]

/-- No entry but that of the file is touched, if what is left has its name or a free one. -/
theorem entriesAfter_other {left : Option (String × ByteArray)} {n : String} {entry : Entry}
    (hleft : ∀ l, left = some l → l.1 = name ∨ get? d l.1 = none) (hn : n ≠ name) (he : get? d n = some entry) :
    entriesAfter (get? d) name left n = some entry := by
  cases left with
  | none => rw [entriesAfter, if_neg hn, he]
  | some l =>
    -- what is left has the name of the file or a free one, and the other entry has neither
    have hne : n ≠ l.1 := by
      rintro rfl
      rcases hleft l rfl with hname | hfree
      · exact hn hname
      · rw [hfree] at he
        cases he
    obtain ⟨m, content⟩ := l
    rw [entriesAfter, if_neg hne, if_neg hn, he]

/-- A file carries the extension just when it has its last name. -/
theorem carries_target (h : path ≠ "") (hn : IsName name) :
    carries f.extension (join path name) = decide (f.target name = name) := by
  rw [carries_join h hn, target, targetName]
  by_cases hx : extensionOf name = some f.extension
  · simp [hx]
  · simp [hx, withExtension_ne]

/-- A file that can be given its last name gets it. -/
theorem ensureExtension_free (h : t.LeadsTo path parts d) (hn : Reaches path name) (ht : Reaches path (f.target name))
    (hf : get? d name = some (.file bytes)) (hfree : f.target name ≠ name → get? d (f.target name) = none) :
    ∃ t' d', ensureExtension f.extension t (join path name) = .ok (join path (f.target name), t') ∧
      t'.LeadsTo path parts d' ∧ SameOutside t t' parts ∧ SameFolders d d' ∧
      ∀ n, get? d' n = entriesAfter (get? d) name (some (f.target name, bytes)) n := by
  by_cases he : f.target name = name
  · have hc : carries f.extension (join path name) = true := by
      rw [carries_target h.nonempty hn.isName, decide_eq_true he]
    -- nothing is done
    refine ⟨t, d, ?_, h, Or.inl rfl, SameFolders.refl d, fun n => ?_⟩
    · rw [ensureExtension, if_pos hc, he]
    · rw [he, entriesAfter_self hf]
  · have hnone := hfree he
    have hwith : f.target name = withExtension f.extension name := targetName_of_ne he
    have hc : carries f.extension (join path name) = false := by
      rw [carries_target h.nonempty hn.isName, decide_eq_false he]
    have hold := isFolderAt_of_file hf
    -- renaming takes one entry away and puts another one, and neither is a folder
    have hnew : isFolderAt (erase d name) (f.target name) = false :=
      isFolderAt_of_none ((get?_erase_ne d he).trans hnone)
    have hsame := (sameFolders_erase hold).trans (sameFolders_put hnew bytes)
    refine ⟨t.within parts ((d.erase name).put (f.target name) (.file bytes)), _, ?_, h.within hsame,
      Or.inr ⟨_, rfl⟩, hsame, fun n => ?_⟩
    · have hentry : t.hasEntry (join path (f.target name)) = false := by rw [h.hasEntry_join ht, hnone]; rfl
      have hren := h.rename_join hn ht hf hnone
      simp only [ensureExtension, hc, withExtension_join hn.isName, ← hwith, hentry, hren, Bool.false_eq_true, if_false]
    · -- the new name, the old one, and any other
      unfold entriesAfter
      dsimp only
      split
      · rename_i hnn; rw [hnn, get?_put_self]
      · rename_i hnn
        rw [get?_put_ne _ _ hnn]
        split
        · rename_i hnm; rw [hnm, get?_erase_self]
        · rename_i hnm; rw [get?_erase_ne _ hnm]

/-- A file whose last name is taken stops there. -/
theorem ensureExtension_taken (h : t.LeadsTo path parts d) (hn : Reaches path name) (ht : Reaches path (f.target name))
    (hne : f.target name ≠ name) (htaken : (get? d (f.target name)).isSome) :
    ∃ cause, ensureExtension f.extension t (join path name) = .error cause := by
  have hwith : f.target name = withExtension f.extension name := targetName_of_ne hne
  have hc : carries f.extension (join path name) = false := by
    rw [carries_target h.nonempty hn.isName, decide_eq_false hne]
  have hentry : t.hasEntry (join path (f.target name)) = true := by rw [h.hasEntry_join ht, htaken]
  refine ⟨.nameTaken (join path name) (join path (f.target name)), ?_⟩
  simp only [ensureExtension, hc, withExtension_join hn.isName, ← hwith, hentry, Bool.false_eq_true, if_false, if_true]

/-! ## Removing, judging, replacing

Each of these is about a file that is where its fate says, so that no name changes. -/

/-- To remove a file is a fate that leaves nothing of it. -/
theorem discard_meets (h : t.LeadsTo path parts d) (hn : Reaches path name) (hf : get? d name = some (.file bytes))
    (reason : Rejection) (shown : Option (String × ByteArray)) :
    ∃ d', Meets t path parts d name { tally := .rejected, shown }
      { result := (discard t (join path name) reason).1, files := (discard t (join path name) reason).2,
        shown := shown.toList } d' := by
  have hsame := sameFolders_erase (isFolderAt_of_file hf)
  -- a file that is there and can be reached is removed
  have hd : discard t (join path name) reason = (.ok (.rejected reason), t.within parts (d.erase name)) := by
    rw [discard, h.remove_join hn hf]
  rw [hd]
  refine ⟨d.erase name, h.within hsame, Or.inr ⟨_, rfl⟩, hsame, fun n => ?_, rfl, rfl⟩
  unfold entriesAfter
  dsimp only
  split
  · rename_i hnm; rw [hnm, get?_erase_self]
  · rename_i hnm; rw [get?_erase_ne _ hnm]

/-- To leave a file as it is is a fate that leaves all of it. -/
theorem stay_meets (h : t.LeadsTo path parts d) (hf : get? d name = some (.file bytes)) (cause : FilterError)
    (shown : Option (String × ByteArray)) :
    Meets t path parts d name { tally := .failed, left := some (name, bytes), shown }
      { result := .error cause, files := t, shown := shown.toList } d := by
  refine ⟨h, Or.inl rfl, SameFolders.refl d, fun n => ?_, rfl, rfl⟩
  exact (entriesAfter_self hf n).symm

/-- The compiler sees a file, and its verdict is the fate of the file. -/
theorem judge_meets (h : t.LeadsTo path parts d) (hn : Reaches path name) (hf : get? d name = some (.file bytes))
    (text : String) : ∃ d', Meets t path parts d name (f.fateShown path name text bytes)
      { result := (f.toFilter.judge t (join path name) text).1, files := (f.toFilter.judge t (join path name) text).2,
        shown := [(join path name, bytes)] } d' := by
  have hr := h.read_join hn hf
  have hcompiler : f.toFilter.compiler t (join path name) = (f.judge (join path name) bytes, t) := by
    simp only [toFilter, Compiler.ofJudgement, hr, Except.toOption, Option.getD_some]
  unfold SeedFilter.judge fateShown
  rw [hcompiler]
  -- if the compiler breaks down the file stays, otherwise the verdict decides
  cases f.judge (join path name) bytes with
  | error cause => exact ⟨d, stay_meets h hf (.tool cause) (some (join path name, bytes))⟩
  | ok verdict =>
    cases verdict with
    | rejected => exact discard_meets h hn hf .compileFailed (some (join path name, bytes))
    | timedOut => exact discard_meets h hn hf .compileTimedOut (some (join path name, bytes))
    | accepted =>
      have hcanonical : f.toFilter.canonicalizer t text = (f.canonical text, t) := rfl
      dsimp only
      unfold SeedFilter.canonicalize
      rw [hcanonical]
      cases f.canonical text with
      | error cause => exact ⟨d, stay_meets h hf (.tool cause) (some (join path name, bytes))⟩
      | ok canonical =>
        have hfile := isFolderAt_of_file hf
        -- the normal form is written over the file
        have hsame := sameFolders_put hfile canonical.toUTF8
        dsimp only
        rw [h.write_join hn hfile]
        refine ⟨_, h.within hsame, Or.inr ⟨_, rfl⟩, hsame, fun n => ?_, rfl, rfl⟩
        unfold entriesAfter
        dsimp only
        split
        · rename_i hnm; rw [hnm, get?_put_self]
        · rename_i hnm; rw [get?_put_ne _ _ hnm]

/-! ## All steps

The order of the steps is that of the branches of a fate. -/

/-- What a file meets under its new name it meets. -/
theorem Meets.renamed {t' : FileTree} {newName : String} {fate : Fate} {step : Sifted (Except FilterError Outcome)}
    {d'' : Folder} (h : t.LeadsTo path parts d) (ho : SameOutside t t' parts) (hsame : SameFolders d d')
    (hentries : ∀ n, get? d' n = entriesAfter (get? d) name (some (newName, bytes)) n)
    (hfree : newName ≠ name → get? d newName = none) (hleft : ∀ l, fate.left = some l → l.1 = newName)
    (hm : Meets t' path parts d' newName fate step d'') : Meets t path parts d name fate step d'' := by
  refine ⟨hm.leads, ?_, hsame.trans hm.folders, fun n => ?_, hm.shown, hm.tally⟩
  · exact ho.trans h hm.outside
  · rw [hm.entries]
    -- nothing is left of the file, under either name, or it is left under the new one
    cases hl : fate.left with
    | none =>
      simp only [entriesAfter, hentries]
      by_cases hn : n = newName
      · by_cases hname : n = name
        · rw [if_pos hn, if_pos hname]
        · rw [if_pos hn, if_neg hname, hn, hfree (hn ▸ hname)]
      · rw [if_neg hn, if_neg hn]
    | some l =>
      obtain ⟨m, content⟩ := l
      have hm' : m = newName := hleft _ hl
      subst hm'
      simp only [entriesAfter, hentries]
      by_cases hn : n = m
      · rw [if_pos hn, if_pos hn]
      · simp only [if_neg hn]

/-- A file of the folder that a path leads to meets its fate, if it can be given its last name where that is due. -/
theorem processFile_meets (h : t.LeadsTo path parts d) (hn : Reaches path name) (hf : get? d name = some (.file bytes))
    (ht : ∀ text, String.fromUTF8? bytes = some text → f.gates.check text = .ok () → Reaches path (f.target name)) :
    ∃ d', Meets t path parts d name (f.fate path d name bytes) (f.toFilter.processFile t (join path name)) d' := by
  unfold SeedFilter.processFile fate
  rw [h.read_join hn hf]
  dsimp only
  cases hutf : String.fromUTF8? bytes with
  | none => exact discard_meets h hn hf .notUtf8 none
  | some text =>
    have hgates : f.toFilter.gates = f.gates := rfl
    dsimp only
    rw [hgates]
    cases hg : f.gates.check text with
    | error reason => exact discard_meets h hn hf reason none
    | ok u =>
      have hreach := ht text hutf hg
      have hext : f.toFilter.extension = f.extension := rfl
      dsimp only
      rw [hext]
      -- the name with the extension is taken by another entry, or it can be given
      by_cases htaken : f.target name ≠ name ∧ d.contains (f.target name)
      · obtain ⟨cause, hc⟩ := ensureExtension_taken h hn hreach htaken.1 htaken.2
        rw [hc, if_pos htaken]
        exact ⟨d, stay_meets h hf cause none⟩
      · have hfree : f.target name ≠ name → get? d (f.target name) = none := fun hne =>
          Option.not_isSome_iff_eq_none.mp fun hs => htaken ⟨hne, hs⟩
        obtain ⟨t', d', hens, hleads, ho, hsame, hentries⟩ := ensureExtension_free h hn hreach hf hfree
        -- under its last name the file holds its bytes, and so the rest goes as for a file of that name
        have hf' : get? d' (f.target name) = some (.file bytes) := by
          rw [hentries]; exact if_pos rfl
        obtain ⟨d'', hm⟩ := judge_meets (f := f) hleads hreach hf' text
        rw [hens, if_neg htaken]
        exact ⟨d'', hm.renamed h ho hsame hentries hfree fun l hl => fateShown_left hl⟩

/-- A fate leaves all other entries as they are. -/
theorem Meets.others {step : Sifted (Except FilterError Outcome)} {n : String} {entry : Entry}
    (hm : Meets t path parts d name (f.fate path d name bytes) step d') (hn : n ≠ name) (he : get? d n = some entry) :
    get? d' n = some entry := by
  rw [hm.entries]
  refine entriesAfter_other (fun l hl => ?_) hn he
  rcases fate_left hl with hsame | ⟨-, hfree⟩
  · exact .inl hsame
  · exact .inr (Option.not_isSome_iff_eq_none.mp (Bool.eq_false_iff.mp hfree))

end QuietFilter

end SeedCorpus
