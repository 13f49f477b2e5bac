/-
  No file is lost.

  A step about one file of a folder ends in one of many ways: the bytes are no text, a gate refuses the text, the last name is
  taken or too long, a tool fails, the compiler refuses, or all goes well.  Whatever the tools answer, the folder
  afterwards is told by the result (`SeedFilter.Keeps`), and no entry but that of the file is touched.

  1. Tools that change no file give a filter the answers that it would get from tools which look at nothing but the path
     and the text (`SeedFilter.processFile_eq`).  Hence the file meets its fate.
  2. The forms of a fate differ by their tallies, and the result of the step has the same tally; so the result tells what is
     left of the file (`SeedFilter.keeps_of_fate`).
  3. If a name that is needed cannot be used, then nothing is done (`SeedFilter.reaches_or_stops`).
-/
import SeedCorpus.Proofs.Filter.OneFile
import SeedCorpus.Proofs.Text.Bytes

namespace SeedCorpus

open SeedCorpus.Folder SeedCorpus.FileTree SeedCorpus.Path

namespace SeedFilter

/-! ## What should be kept

What is left of a file is said by the result of the step, as a user sees only the result. -/

/-- The tools of a filter change no file. -/
structure LeavesFiles (f : SeedFilter) : Prop where
  /-- The compiler does not. -/
  compiler : ∀ t path, (f.compiler t path).2 = t
  /-- The canonicalizer does not. -/
  canonicalizer : ∀ t text, (f.canonicalizer t text).2 = t

/-- The files as the tools find them: the file that the path leads to has its last name. -/
def asked (f : SeedFilter) (t : FileTree) (path : String) : FileTree :=
  match ensureExtension f.extension t path with
  | .ok (_, t') => t'
  | .error _ => t

/-- The filter that decides about the file of a path as this one does, with tools that look at no files. -/
def quiet (f : SeedFilter) (t : FileTree) (path : String) : QuietFilter where
  gates := f.gates
  extension := f.extension
  judge newPath _ := (f.compiler (f.asked t path) newPath).1
  canonical text := (f.canonicalizer (f.asked t path) text).1

/-- A name that a file of a folder can have in the end: its own if it carries the extension, or else a free one with the
extension behind it. -/
def IsLast (f : SeedFilter) (d : Folder) (name newName : String) : Prop :=
  newName = name ∧ extensionOf name = some f.extension ∨
    newName = withExtension f.extension name ∧ extensionOf name ≠ some f.extension ∧ get? d newName = none

/-- What a step about the file `name` of the folder `d` has left, by its result. -/
def Keeps (f : SeedFilter) (t : FileTree) (path : String) (d : Folder) (name : String) (bytes : ByteArray) (d' : Folder) :
    Except FilterError Outcome → Prop
  | .error _ => ∃ newName, (newName = name ∨ f.IsLast d name newName) ∧
      ∀ n, get? d' n = QuietFilter.entriesAfter (get? d) name (some (newName, bytes)) n
  | .ok (.rejected _) => ∀ n, get? d' n = QuietFilter.entriesAfter (get? d) name none n
  | .ok (.accepted p length) => ∃ newName text canonical, f.IsLast d name newName ∧ p = join path newName ∧
      bytes = text.toUTF8 ∧ length = text.length ∧ f.gates.check text = .ok () ∧
      (f.compiler (f.asked t (join path name)) p).1 = .ok .accepted ∧
      (f.canonicalizer (f.asked t (join path name)) text).1 = .ok canonical ∧
      ∀ n, get? d' n = QuietFilter.entriesAfter (get? d) name (some (newName, canonical.toUTF8)) n

/-- A step about the file `name` of the folder `d` loses nothing that should be kept. -/
structure Preserves (f : SeedFilter) (t : FileTree) (path : String) (d : Folder) (name : String) (bytes : ByteArray)
    (step : Sifted (Except FilterError Outcome)) : Prop where
  /-- The path leads to a folder in which the file is left as the result says and no other entry is touched, and nothing
  outside of it has changed. -/
  left : ∃ parts d', t.LeadsTo path parts d ∧ step.files.LeadsTo path parts d' ∧ SameOutside t step.files parts ∧
    f.Keeps t path d name bytes d' step.result ∧
      ∀ n entry, n ≠ name → get? d n = some entry → get? d' n = some entry
  /-- The compiler is shown nothing, or it is shown the file: once, under its last name, and with the bytes that it had, which
  are a text that the gates let through. -/
  shown : step.shown = [] ∨ ∃ newName text, f.IsLast d name newName ∧ bytes = text.toUTF8 ∧ f.gates.check text = .ok () ∧
    (f.asked t (join path name)).read (join path newName) = .ok bytes ∧ step.shown = [(join path newName, bytes)]
  /-- Which result it is follows from the gates, from whether the last name is taken and from the answers of the tools, if the
  names can be used. -/
  counted : Reaches path name → Reaches path (targetName f.extension name) →
    QuietFilter.tallyOf step.result = ((f.quiet t (join path name)).fate path d name bytes).tally

/-! ## Tools that leave files alone

A filter is compared with one whose tools look at no files.  At one file the two get the same answers, so that all that is
known of the second one (`processFile_meets`) can be said of the first. -/

variable {f : SeedFilter} {t : FileTree} {path name : String} {parts : List String} {d : Folder} {bytes : ByteArray}

/-- Both filters judge alike, as both tools are asked about the same files. -/
theorem judge_eq (h : f.LeavesFiles) (t : FileTree) (path newPath text : String) :
    f.judge (f.asked t path) newPath text = (f.quiet t path).toFilter.judge (f.asked t path) newPath text := by
  have hcompiler : (f.quiet t path).toFilter.compiler (f.asked t path) newPath = f.compiler (f.asked t path) newPath :=
    Prod.ext rfl (h.compiler _ _).symm
  have hcanonicalizer : (f.quiet t path).toFilter.canonicalizer (f.asked t path) text =
      f.canonicalizer (f.asked t path) text := Prod.ext rfl (h.canonicalizer _ _).symm
  have hcanonicalize : f.canonicalize (f.asked t path) newPath text =
      (f.quiet t path).toFilter.canonicalize (f.asked t path) newPath text := by
    rw [canonicalize, canonicalize, hcanonicalizer]
  have hanswer : f.compiler (f.asked t path) newPath = ((f.compiler (f.asked t path) newPath).1, f.asked t path) :=
    Prod.ext rfl (h.compiler _ _)
  unfold judge
  rw [hcompiler, hanswer]
  -- with the same verdict both do the same
  cases (f.compiler (f.asked t path) newPath).1 with
  | error cause => rfl
  | ok verdict =>
    cases verdict with
    | rejected => rfl
    | timedOut => rfl
    | accepted => exact hcanonicalize

/-- Both filters take the same steps about the file. -/
theorem processFile_eq (h : f.LeavesFiles) (t : FileTree) (path : String) :
    f.processFile t path = (f.quiet t path).toFilter.processFile t path := by
  unfold processFile
  cases t.read path with
  | error e => rfl
  | ok bytes =>
    dsimp only
    cases String.fromUTF8? bytes with
    | none => rfl
    | some text =>
      have hgates : (f.quiet t path).toFilter.gates = f.gates := rfl
      have hextension : (f.quiet t path).toFilter.extension = f.extension := rfl
      dsimp only
      rw [hgates, hextension]
      cases f.gates.check text with
      | error reason => rfl
      | ok u =>
        dsimp only
        -- up to here no tool was asked; now both filters ask about the same files
        cases hens : ensureExtension f.extension t path with
        | error cause => rfl
        | ok renamed =>
          obtain ⟨newPath, t'⟩ := renamed
          have hasked : f.asked t path = t' := by rw [asked, hens]
          dsimp only
          rw [← hasked, judge_eq h]

/-! ## Last names

The tools are asked when the file has its last name already. -/

/-- The tools find the file under its last name, with its bytes. -/
theorem asked_spec (h : t.LeadsTo path parts d) (hn : Reaches path name) (ht : Reaches path (targetName f.extension name))
    (hf : get? d name = some (.file bytes))
    (hfree : targetName f.extension name ≠ name → get? d (targetName f.extension name) = none) :
    ensureExtension f.extension t (join path name) =
        .ok (join path (targetName f.extension name), f.asked t (join path name)) ∧
      (f.asked t (join path name)).read (join path (targetName f.extension name)) = .ok bytes := by
  obtain ⟨t', d', hens, hleads, -, -, hentries⟩ :=
    QuietFilter.ensureExtension_free (f := f.quiet t path) h hn ht hf hfree
  have hens' : ensureExtension f.extension t (join path name) = .ok (join path (targetName f.extension name), t') := hens
  have hasked : f.asked t (join path name) = t' := by rw [asked, hens']
  rw [hasked]
  refine ⟨hens', hleads.read_join ht ?_⟩
  rw [hentries]
  exact if_pos rfl

/-- The last name of a file is its own or a free one. -/
theorem isLast_target (hfree : targetName f.extension name ≠ name → get? d (targetName f.extension name) = none) :
    f.IsLast d name (targetName f.extension name) := by
  by_cases hx : extensionOf name = some f.extension
  · exact .inl ⟨by rw [targetName, if_pos hx], hx⟩
  · have hwith : targetName f.extension name = withExtension f.extension name := by rw [targetName, if_neg hx]
    refine .inr ⟨hwith, hx, hfree ?_⟩
    rw [hwith]
    exact withExtension_ne _ _

/-- To remove a file is not to accept it. -/
theorem discard_ne_accepted (t : FileTree) (path : String) (reason : Rejection) (p : String) (length : Nat) :
    (discard t path reason).1 ≠ .ok (.accepted p length) := by
  unfold discard
  split <;> exact nofun

/-- A file is accepted under the path that the compiler was shown. -/
theorem path_of_judge {text p : String} {length : Nat} (hok : (f.judge t path text).1 = .ok (.accepted p length)) :
    p = path := by
  unfold judge at hok
  split at hok
  · cases hok
  · exact absurd hok (discard_ne_accepted _ _ _ _ _)
  · exact absurd hok (discard_ne_accepted _ _ _ _ _)
  · unfold canonicalize at hok
    split at hok
    · cases hok
    · split at hok <;> cases hok
      rfl

/-- A file is accepted under its last name. -/
theorem path_of_accepted {p : String} {length : Nat}
    (hok : (f.processFile t path).result = .ok (.accepted p length)) :
    ∃ t', ensureExtension f.extension t path = .ok (p, t') := by
  unfold processFile at hok
  split at hok
  · cases hok
  · split at hok
    · exact absurd hok (discard_ne_accepted _ _ _ _ _)
    · split at hok
      · exact absurd hok (discard_ne_accepted _ _ _ _ _)
      · split at hok
        · cases hok
        · rename_i newPath t' hens
          obtain rfl := path_of_judge hok
          exact ⟨t', hens⟩

/-! ## One step

The fate of the file is known if the names can be used, and it tells all that there is to tell. -/

/-- A file meets its fate under the answers of the tools, if its names can be used. -/
theorem meets_of_reaches (hleaves : f.LeavesFiles) (h : t.LeadsTo path parts d) (hn : Reaches path name)
    (hf : get? d name = some (.file bytes))
    (ht : ∀ text, String.fromUTF8? bytes = some text → f.gates.check text = .ok () →
      Reaches path (targetName f.extension name)) :
    ∃ d', QuietFilter.Meets t path parts d name ((f.quiet t (join path name)).fate path d name bytes)
      (f.processFile t (join path name)) d' := by
  rw [processFile_eq hleaves]
  exact QuietFilter.processFile_meets (f := f.quiet t (join path name)) h hn hf ht

/-- The fate of a file under the answers of the tools keeps what should be kept. -/
theorem keeps_of_fate (h : t.LeadsTo path parts d) (hn : Reaches path name) (hf : get? d name = some (.file bytes))
    (ht : ∀ text, String.fromUTF8? bytes = some text → f.gates.check text = .ok () →
      Reaches path (targetName f.extension name)) {d' : Folder}
    (hm : QuietFilter.Meets t path parts d name
      ((f.quiet t (join path name)).fate path d name bytes) (f.processFile t (join path name)) d') :
    f.Keeps t path d name bytes d' (f.processFile t (join path name)).result := by
  -- the file goes, or it stays as it is, or the compiler is shown it
  rcases QuietFilter.fate_cases (f.quiet t (join path name)) path d name bytes with
    hfate | hfate | ⟨text, hbytes, hgates, hfree, hfate⟩ <;> rw [hfate] at hm
  · obtain ⟨reason, hresult⟩ := QuietFilter.eq_rejected_of_tally hm.tally
    rw [hresult]
    exact hm.entries
  · obtain ⟨cause, hresult⟩ := QuietFilter.eq_error_of_tally hm.tally
    rw [hresult]
    exact ⟨name, .inl rfl, hm.entries⟩
  · -- the compiler is shown the file under its last name
    have hlast : f.IsLast d name (targetName f.extension name) := isLast_target hfree
    rcases QuietFilter.fateShown_cases (f.quiet t (join path name)) path
      ((f.quiet t (join path name)).target name) text bytes with
      hfate | hfate | ⟨canonical, hjudge, hcanonical, hfate⟩ <;> rw [hfate] at hm
    · obtain ⟨cause, hresult⟩ := QuietFilter.eq_error_of_tally hm.tally
      rw [hresult]
      exact ⟨_, .inr hlast, hm.entries⟩
    · obtain ⟨reason, hresult⟩ := QuietFilter.eq_rejected_of_tally hm.tally
      rw [hresult]
      exact hm.entries
    · obtain ⟨p, hresult⟩ := QuietFilter.eq_accepted_of_tally hm.tally
      have hreach := ht text (fromUTF8?_eq_some_iff.mpr hbytes) hgates
      obtain ⟨t', hens⟩ := path_of_accepted hresult
      have hpath : p = join path (targetName f.extension name) := by
        rw [(asked_spec h hn hreach hf hfree).1] at hens
        exact (Prod.mk.inj (Except.ok.inj hens)).1.symm
      subst hpath
      rw [hresult]
      exact ⟨_, text, canonical, hlast, rfl, hbytes, rfl, hgates, hjudge, hcanonical, hm.entries⟩

/-- The compiler is shown at most one file, and it is the file under its last name. -/
theorem shown_of_fate (h : t.LeadsTo path parts d) (hn : Reaches path name) (hf : get? d name = some (.file bytes))
    (ht : ∀ text, String.fromUTF8? bytes = some text → f.gates.check text = .ok () →
      Reaches path (targetName f.extension name)) {d' : Folder}
    (hm : QuietFilter.Meets t path parts d name
      ((f.quiet t (join path name)).fate path d name bytes) (f.processFile t (join path name)) d') :
    (f.processFile t (join path name)).shown = [] ∨ ∃ newName text, f.IsLast d name newName ∧ bytes = text.toUTF8 ∧
      f.gates.check text = .ok () ∧ (f.asked t (join path name)).read (join path newName) = .ok bytes ∧
      (f.processFile t (join path name)).shown = [(join path newName, bytes)] := by
  have hshown := hm.shown
  -- in the first two cases the compiler is not asked
  rcases QuietFilter.fate_cases (f.quiet t (join path name)) path d name bytes with
    hfate | hfate | ⟨text, hbytes, hgates, hfree, hfate⟩ <;> rw [hfate] at hshown
  · exact .inl hshown
  · exact .inl hshown
  · have hreach := ht text (fromUTF8?_eq_some_iff.mpr hbytes) hgates
    refine .inr ⟨_, text, isLast_target hfree, hbytes, hgates, (asked_spec h hn hreach hf hfree).2, ?_⟩
    rcases QuietFilter.fateShown_cases (f.quiet t (join path name)) path
      ((f.quiet t (join path name)).target name) text bytes with
      hfate | hfate | ⟨canonical, -, -, hfate⟩ <;> rw [hfate] at hshown <;> exact hshown

/-- **A step about one file loses nothing that should be kept**, whatever the tools answer.  If the step fails, the file stays
with its bytes, under its name or under a free one.  If the file is rejected, it goes.  If it is accepted, it holds the normal
form of its text under its last name. -/
theorem processFile_preserves (f : SeedFilter) (hleaves : f.LeavesFiles) (hslash : '/' ∉ f.extension.toList)
    (h : t.findFolder path = .ok d) (hdev : ∀ place, t.locate path = .ok place → place.parts ≠ ["dev"])
    (hn : IsName name) (hf : get? d name = some (.file bytes)) :
    f.Preserves t path d name bytes (f.processFile t (join path name)) := by
  obtain ⟨parts, hleads⟩ := leadsTo_of_findFolder h hdev
  have hcounted : Reaches path name → Reaches path (targetName f.extension name) →
      QuietFilter.tallyOf (f.processFile t (join path name)).result =
        ((f.quiet t (join path name)).fate path d name bytes).tally := by
    intro hname htarget
    obtain ⟨d', hm⟩ := meets_of_reaches hleaves hleads hname hf fun _ _ _ => htarget
    exact hm.tally
  -- either the names can be used, and the file meets its fate, or nothing is done
  rcases f.reaches_or_stops hslash hleads hn hf with ⟨hname, htarget⟩ | ⟨cause, hstops⟩
  · obtain ⟨d', hm⟩ := meets_of_reaches hleaves hleads hname hf htarget
    exact ⟨⟨parts, d', hleads, hm.leads, hm.outside, keeps_of_fate hleads hname hf htarget hm,
      fun _ _ => hm.others⟩, shown_of_fate hleads hname hf htarget hm, hcounted⟩
  · -- nothing is done
    have hsame : ∀ n, get? d n = QuietFilter.entriesAfter (get? d) name (some (name, bytes)) n := fun n =>
      (QuietFilter.entriesAfter_self hf n).symm
    have hleft : f.Keeps t path d name bytes d (f.processFile t (join path name)).result := by
      rw [hstops]
      exact ⟨name, .inl rfl, hsame⟩
    have hfiles : (f.processFile t (join path name)).files = t := by rw [hstops]
    have hshown : (f.processFile t (join path name)).shown = [] := by rw [hstops]
    refine ⟨⟨parts, d, hleads, ?_, ?_, hleft, fun n entry _ he => he⟩, .inl hshown, hcounted⟩
    · rw [hfiles]
      exact hleads
    · exact .inl hfiles

/-- A filter whose compiler accepts every file and whose canonicalizer breaks down. -/
def breaking : SeedFilter where
  gates := { minLength := 0, nestingDepth := 0 }
  extension := "c"
  compiler := .ofJudgement fun _ _ => .ok .accepted
  canonicalizer := .ofText fun _ => .error (.crashed "indent")

/-- A seed that does not carry the extension, and another one. -/
def twoSeeds : Folder := [("a", .file "int a;".toUTF8), ("b.c", .file "int b;".toUTF8)]

/-- A seed that gets a new name and is accepted by the compiler stays there as it is when the canonicalizer breaks down. -/
theorem twoSeeds_preserved : (FileTree.ofFolder [("seeds", .folder twoSeeds)]).findFolder "seeds" = .ok twoSeeds ∧
    get? twoSeeds "a" = some (.file "int a;".toUTF8) ∧
    breaking.Preserves (.ofFolder [("seeds", .folder twoSeeds)]) "seeds" twoSeeds "a" "int a;".toUTF8
      (breaking.processFile (.ofFolder [("seeds", .folder twoSeeds)]) (join "seeds" "a")) := by
  refine ⟨rfl, rfl, processFile_preserves breaking ⟨fun _ _ => rfl, fun _ _ => rfl⟩ (by decide) rfl ?_ ?_ rfl⟩
  · intro place hplace
    have hseeds : (FileTree.ofFolder [("seeds", .folder twoSeeds)]).locate "seeds" = .ok ⟨["seeds"], false⟩ := rfl
    rw [hseeds] at hplace
    cases hplace
    decide
  · exact ⟨by decide, by decide, by decide, by decide, by decide, by decide⟩

end SeedFilter

end SeedCorpus
