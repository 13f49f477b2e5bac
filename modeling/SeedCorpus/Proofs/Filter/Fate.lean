/-
  What becomes of one file.

  A filter whose tools leave all files alone (`QuietFilter`) decides about a file by looking at its bytes and at whether the
  name with the extension is taken.  `QuietFilter.fate` says so much directly: how the file is counted, what is left of it
  under which name, and what the compiler sees.

  A fate has one of few forms, which `fate_cases` and `fateShown_cases` tell; they are what later proofs go by.

  Fates do not get in each other's way: what is left of two files never has one name (`fate_left_inj`).  For a file stays
  under its own name, or it takes one that was free, and different names get different ones with the extension.
-/
import SeedCorpus.Filter.Seeds
import SeedCorpus.Proofs.Folder.Names
import SeedCorpus.Proofs.Text.Bytes

namespace SeedCorpus

open SeedCorpus.Folder SeedCorpus.Path

/-! ## Names with an extension

The program works with paths, and puts the extension behind a whole path.  That comes to the same as putting it behind the
name, as the name is what the path ends with. -/

/-- The name that a file of the corpus has in the end. -/
def targetName (extension name : String) : String :=
  if extensionOf name = some extension then name else withExtension extension name

/-- A name with something behind it stays behind the path. -/
theorem join_append {path name : String} (hn : IsName name) (s : String) :
    join path name ++ s = join path (name ++ s) := by
  -- a name does not begin with a slash, and so nothing that begins with it does
  have habs : ∀ s : String, isAbsolute (name ++ s) = false := by
    intro s
    have h := isAbsolute_eq_false hn.noSlash
    unfold isAbsolute at h ⊢
    rw [String.toList_append]
    cases hl : name.toList with
    | nil => exact absurd (String.toList_eq_nil_iff.mp hl) hn.nonempty
    | cons c rest => rw [hl] at h; exact h
  have hname := habs ""
  rw [String.append_empty] at hname
  unfold join
  rw [hname, habs s, if_neg Bool.false_ne_true, if_neg Bool.false_ne_true]
  split <;> simp [String.append_assoc]

/-- The extension can be put behind the name or behind the path. -/
theorem withExtension_join {path name : String} (hn : IsName name) (extension : String) :
    withExtension extension (join path name) = join path (withExtension extension name) := by
  unfold withExtension
  rw [String.append_assoc, join_append hn, String.append_assoc]

/-- The last name of a path with a name behind it is that name. -/
theorem lastName_join {path name : String} (hp : path ≠ "") (hn : IsName name) : lastName (join path name) = name := by
  obtain ⟨before, hj, -⟩ := names_join hp hn.noSlash
  simp [lastName, hj, List.filter_append, hn.nonempty, hn.notDot]

/-- Whether a file carries the extension is told by its name. -/
theorem carries_join {path name : String} (hp : path ≠ "") (hn : IsName name) (extension : String) :
    carries extension (join path name) = decide (extensionOf name = some extension) := by
  rw [carries, lastName_join hp hn]

theorem withExtension_ne (extension name : String) : withExtension extension name ≠ name := by
  intro h
  have hl := congrArg String.length h
  simp only [withExtension, String.length_append] at hl
  have hdot : ".".length = 1 := by decide
  omega

theorem withExtension_inj {extension a b : String} (h : withExtension extension a = withExtension extension b) : a = b := by
  simp only [withExtension, String.append_assoc] at h
  exact String.append_left_inj _ |>.mp h

theorem targetName_of_ne {extension name : String} (h : targetName extension name ≠ name) :
    targetName extension name = withExtension extension name := by
  unfold targetName at h ⊢
  split
  · rename_i he; rw [if_pos he] at h; exact absurd rfl h
  · rfl

/-- A name with an extension is the name of an entry again, though it can be too long. -/
theorem isPlain_withExtension {extension name : String} (hslash : '/' ∉ extension.toList) (hn : Path.IsPlain name) :
    Path.IsPlain (withExtension extension name) := by
  have hname : name.toList ≠ [] := fun he => hn.nonempty (String.toList_eq_nil_iff.mp he)
  have hlist : (withExtension extension name).toList = name.toList ++ '.' :: extension.toList := by simp [withExtension]
  have hpos : 0 < name.toList.length := List.length_pos_iff.mpr hname
  refine ⟨?_, ?_, ?_, ?_⟩
  · intro he
    rw [he] at hlist
    simp at hlist
  · -- a dot alone is too short
    intro he
    have hlen := congrArg List.length hlist
    rw [he, List.length_append, List.length_cons] at hlen
    have hone : ".".toList.length = 1 := rfl
    omega
  · intro he
    have hlen := congrArg List.length hlist
    rw [he, List.length_append, List.length_cons] at hlen
    have htwo : "..".toList.length = 2 := rfl
    have hsingle : name.toList.length = 1 := by omega
    obtain ⟨c, hc⟩ := List.length_eq_one_iff.mp hsingle
    rw [he, hc] at hlist
    have hdot : '.' = c := (List.cons.inj hlist).1
    exact hn.notDot (String.toList_injective (by rw [hc, ← hdot]; rfl))
  · rw [hlist, List.mem_append, List.mem_cons]
    rintro (hs | hs | hs)
    · exact hn.noSlash hs
    · exact absurd hs (by decide)
    · exact hslash hs

/-! ## Fates

The fate of a file is computed from the folder as it is, without changing it.  Its branches are those of the steps about a
file. -/

/-- How a file is counted. -/
inductive Tally where
  /-- As kept, with the number of its characters. -/
  | accepted (length : Nat)
  /-- As removed. -/
  | rejected
  /-- As one that could not be dealt with. -/
  | failed
deriving DecidableEq, Repr

/-- What becomes of a file. -/
structure Fate where
  /-- How it is counted. -/
  tally : Tally
  /-- The name and the bytes under which it stays, if it does. -/
  left : Option (String × ByteArray) := none
  /-- The path and the bytes that the compiler sees, if it does. -/
  shown : Option (String × ByteArray) := none

/-- A filter whose tools leave all files alone: the compiler goes by the path and the bytes that it is shown, the
canonicalizer by the text. -/
structure QuietFilter where
  /-- The thresholds for texts. -/
  gates : Gates
  /-- The extension that files of the corpus carry, without the dot. -/
  extension : String
  /-- The answer of the compiler. -/
  judge : String → ByteArray → Except ToolError Verdict
  /-- The answer of the canonicalizer. -/
  canonical : String → Except ToolError String

namespace QuietFilter

/-- The filter as one whose tools could change files. -/
def toFilter (f : QuietFilter) : SeedFilter where
  gates := f.gates
  extension := f.extension
  compiler := .ofJudgement f.judge
  canonicalizer := .ofText f.canonical

/-- The name that a file has in the end. -/
def target (f : QuietFilter) (name : String) : String := targetName f.extension name

/-- What becomes of a file that the compiler is shown under a name. -/
def fateShown (f : QuietFilter) (path target text : String) (bytes : ByteArray) : Fate :=
  let shown := some (join path target, bytes)
  match f.judge (join path target) bytes with
  | .error _ => { tally := .failed, left := some (target, bytes), shown }
  | .ok .rejected => { tally := .rejected, shown }
  | .ok .timedOut => { tally := .rejected, shown }
  | .ok .accepted =>
    match f.canonical text with
    | .error _ => { tally := .failed, left := some (target, bytes), shown }
    | .ok canonical => { tally := .accepted text.length, left := some (target, canonical.toUTF8), shown }

/-- What becomes of a file with some bytes in a folder to which a path leads.  A file that is no text or that the gates
refuse goes; one whose name with the extension is taken stays as it is; any other gets the name with the extension and is
shown to the compiler. -/
def fate (f : QuietFilter) (path : String) (d : Folder) (name : String) (bytes : ByteArray) : Fate :=
  match String.fromUTF8? bytes with
  | none => { tally := .rejected }
  | some text =>
    match f.gates.check text with
    | .error _ => { tally := .rejected }
    | .ok () =>
      if f.target name ≠ name ∧ d.contains (f.target name) then { tally := .failed, left := some (name, bytes) }
      else f.fateShown path (f.target name) text bytes

variable {f : QuietFilter} {path name other : String} {d d' : Folder} {bytes : ByteArray}

/-- A file goes, or it stays as it is, or it is shown to the compiler under its last name. -/
theorem fate_cases (f : QuietFilter) (path : String) (d : Folder) (name : String) (bytes : ByteArray) :
    f.fate path d name bytes = { tally := .rejected } ∨
    f.fate path d name bytes = { tally := .failed, left := some (name, bytes) } ∨
    ∃ text, bytes = text.toUTF8 ∧ f.gates.check text = .ok () ∧ (f.target name ≠ name → get? d (f.target name) = none) ∧
      f.fate path d name bytes = f.fateShown path (f.target name) text bytes := by
  -- the bytes are a text or not, the gates let it through or not, and the name is free or not
  unfold fate
  cases hutf : String.fromUTF8? bytes with
  | none => exact .inl rfl
  | some text =>
    dsimp only
    cases hgates : f.gates.check text with
    | error reason => exact .inl rfl
    | ok u =>
      dsimp only
      by_cases htaken : f.target name ≠ name ∧ d.contains (f.target name)
      · rw [if_pos htaken]
        exact .inr (.inl rfl)
      · rw [if_neg htaken]
        exact .inr (.inr ⟨text, fromUTF8?_eq_some_iff.mp hutf, hgates,
          fun hne => Option.not_isSome_iff_eq_none.mp fun hs => htaken ⟨hne, hs⟩, rfl⟩)

/-- A file that is shown to the compiler stays with its bytes, or it goes, or it is accepted and holds the normal form of its
text from then on. -/
theorem fateShown_cases (f : QuietFilter) (path target text : String) (bytes : ByteArray) :
    f.fateShown path target text bytes =
      { tally := .failed, left := some (target, bytes), shown := some (join path target, bytes) } ∨
    f.fateShown path target text bytes = { tally := .rejected, shown := some (join path target, bytes) } ∨
    ∃ canonical, f.judge (join path target) bytes = .ok .accepted ∧ f.canonical text = .ok canonical ∧
      f.fateShown path target text bytes =
        { tally := .accepted text.length, left := some (target, canonical.toUTF8), shown := some (join path target, bytes) } := by
  unfold fateShown
  cases f.judge (join path target) bytes with
  | error cause => exact .inl rfl
  | ok verdict =>
    cases verdict with
    | rejected => exact .inr (.inl rfl)
    | timedOut => exact .inr (.inl rfl)
    | accepted =>
      dsimp only
      cases f.canonical text with
      | error cause => exact .inl rfl
      | ok canonical => exact .inr (.inr ⟨canonical, rfl, rfl, rfl⟩)

/-- What is left of a file that the compiler has seen has its last name. -/
theorem fateShown_left {target text : String} {left : String × ByteArray}
    (h : (f.fateShown path target text bytes).left = some left) : left.1 = target := by
  rcases f.fateShown_cases path target text bytes with hfate | hfate | ⟨canonical, -, -, hfate⟩ <;>
    rw [hfate] at h <;> cases h <;> rfl

/-- A file stays under its own name, or under one that the folder did not have. -/
theorem fate_left {left : String × ByteArray} (h : (f.fate path d name bytes).left = some left) :
    left.1 = name ∨ left.1 = withExtension f.extension name ∧ d.contains left.1 = false := by
  rcases f.fate_cases path d name bytes with hfate | hfate | ⟨text, -, -, hfree, hfate⟩ <;> rw [hfate] at h
  · cases h
  · cases h
    exact .inl rfl
  · have hl := fateShown_left h
    by_cases ht : f.target name = name
    · exact .inl (hl.trans ht)
    · refine .inr ⟨hl.trans (targetName_of_ne ht), ?_⟩
      rw [hl, contains, hfree ht]
      rfl

/-- What is left of two files of a folder never has one name. -/
theorem fate_left_inj {bytes' : ByteArray} {left left' : String × ByteArray} (hn : d.contains name) (ho : d.contains other)
    (h : (f.fate path d name bytes).left = some left) (h' : (f.fate path d other bytes').left = some left')
    (he : left.1 = left'.1) : name = other := by
  -- each of the two files has its own name or a new one, and a new one was not in the folder
  rcases fate_left h with hl | ⟨hl, hfree⟩ <;> rcases fate_left h' with hl' | ⟨hl', hfree'⟩
  · rw [← hl, he, hl']
  · rw [← he, hl, hn] at hfree'; cases hfree'
  · rw [he, hl', ho] at hfree; cases hfree
  · exact withExtension_inj (hl.symm.trans (he.trans hl'))

/-- A fate asks the folder nothing but whether the name with the extension is taken. -/
theorem fate_congr (h : f.target name ≠ name → d.contains (f.target name) = d'.contains (f.target name)) :
    f.fate path d name bytes = f.fate path d' name bytes := by
  unfold fate
  by_cases ht : f.target name = name
  · simp only [ht, ne_eq, not_true_eq_false, false_and]
  · rw [h ht]

end QuietFilter

end SeedCorpus
