/-
  Looking names up in folders, and folders in place of others.

  1. **One folder.**  A folder answers `get?` after `put` and `erase` as one expects.  Entries are looked up from the front,
     so that an entry which is put in front hides others of its name; they are taken away all the same.

  2. **A folder below.**  A change of a folder that lies below another (`modifyAt`) is a change of that folder alone
     (`folderAt_modifyAt`), and two changes in a row are one change (`modifyAt_modifyAt`); so work in one place of a tree
     can be followed on the folder in that place.

  3. **Ways to folders.**  Steps on files keep the folders that are in a folder (`SameFolders`).  That is what keeps paths
     leading where they led: whatever led to a folder still does after such a step (`folderAt_modifyAt_isOk`), also through
     `..`.
-/
import SeedCorpus.Proofs.Folder.Names

namespace SeedCorpus

namespace Folder

variable {d d' : Folder} {name other : String} {entry : Entry}

/-! ## Looking names up

There is one lemma for the name in question and one for all other names, for each way to change a folder.  Nothing else is
used of `put` and `erase` later on. -/

theorem get?_cons_self (d : Folder) (name : String) (entry : Entry) : get? ((name, entry) :: d) name = some entry := by
  simp [get?]

theorem get?_cons_ne (d : Folder) (entry : Entry) (h : other ≠ name) : get? ((name, entry) :: d) other = get? d other := by
  have hb : (other == name) = false := beq_false_of_ne h
  simp [get?, List.lookup_cons, hb]

/-- A name that was taken away stands for nothing, however often it came. -/
theorem get?_erase_self (d : Folder) (name : String) : get? (erase d name) name = none := by
  induction d with
  | nil => rfl
  | cons e d ih =>
    obtain ⟨n, x⟩ := e
    by_cases h : n = name
    · simpa [erase, h] using ih
    · rw [erase, List.filter_cons_of_pos (by simpa using h), get?_cons_ne _ _ (Ne.symm h)]
      exact ih

/-- The other names stand for what they stood for. -/
theorem get?_erase_ne (d : Folder) (h : other ≠ name) : get? (erase d name) other = get? d other := by
  induction d with
  | nil => rfl
  | cons e d ih =>
    obtain ⟨n, x⟩ := e
    -- the first entry is taken away, or it stays and may be the one that is looked up
    by_cases hn : n = name
    · rw [erase, List.filter_cons_of_neg (by simpa using hn), get?_cons_ne _ _ (hn ▸ h)]
      exact ih
    · rw [erase, List.filter_cons_of_pos (by simpa using hn)]
      by_cases ho : other = n
      · rw [ho, get?_cons_self, get?_cons_self]
      · rw [get?_cons_ne _ _ ho, get?_cons_ne _ _ ho]
        exact ih

theorem get?_put_self (d : Folder) (name : String) (entry : Entry) : get? (put d name entry) name = some entry :=
  get?_cons_self _ _ _

theorem get?_put_ne (d : Folder) (entry : Entry) (h : other ≠ name) : get? (put d name entry) other = get? d other := by
  rw [put, get?_cons_ne _ _ h, get?_erase_ne _ h]

/-- The entry that is put last stays. -/
theorem put_put (d : Folder) (name : String) (entry entry' : Entry) :
    put (put d name entry) name entry' = put d name entry' := by
  simp [put, erase]

/-! ## Folders that hold the same folders

What is asked of a step is that it neither makes a folder, nor takes one away, nor changes what is in one. -/

/-- The two folders hold the same folders; their files may differ. -/
def SameFolders (d d' : Folder) : Prop := ∀ name sub, get? d name = some (.folder sub) ↔ get? d' name = some (.folder sub)

theorem SameFolders.refl (d : Folder) : SameFolders d d := fun _ _ => Iff.rfl

theorem SameFolders.trans {d'' : Folder} (h : SameFolders d d') (h' : SameFolders d' d'') : SameFolders d d'' :=
  fun name sub => (h name sub).trans (h' name sub)

/-- Whether a name stands for a folder. -/
def isFolderAt (d : Folder) (name : String) : Bool := (get? d name).any (!·.isFile)

theorem isFolderAt_of_file {content : ByteArray} (h : get? d name = some (.file content)) : isFolderAt d name = false := by
  rw [isFolderAt, h]; rfl

theorem isFolderAt_of_none (h : get? d name = none) : isFolderAt d name = false := by
  rw [isFolderAt, h]; rfl

/-- What is no folder does not stand for one. -/
theorem get?_ne_folder (h : isFolderAt d name = false) (sub : Folder) : get? d name ≠ some (.folder sub) := by
  intro hf; rw [isFolderAt, hf] at h; cases h

/-- A file is put where no folder stands. -/
theorem sameFolders_put (h : isFolderAt d name = false) (content : ByteArray) :
    SameFolders d (put d name (.file content)) := by
  intro n sub
  -- under the name there was no folder, and there is none
  by_cases hn : n = name
  · subst hn
    refine ⟨fun hf => absurd hf (get?_ne_folder h sub), fun hf => ?_⟩
    rw [get?_put_self] at hf; cases hf
  · rw [get?_put_ne _ _ hn]

/-- A file that is put where no folder stands leaves the folders where they are. -/
theorem isFolderAt_put (h : isFolderAt d name = false) (content : ByteArray) :
    isFolderAt (put d name (.file content)) = isFolderAt d := by
  funext other
  by_cases he : other = name
  · rw [he, h]
    exact isFolderAt_of_file (get?_put_self d name _)
  · rw [isFolderAt, isFolderAt, get?_put_ne _ _ he]

/-- An entry is taken away that is no folder. -/
theorem sameFolders_erase (h : isFolderAt d name = false) : SameFolders d (erase d name) := by
  intro n sub
  by_cases hn : n = name
  · subst hn
    refine ⟨fun hf => absurd hf (get?_ne_folder h sub), fun hf => ?_⟩
    rw [get?_erase_self] at hf; cases hf
  · rw [get?_erase_ne _ hn]

/-! ## A folder in place of one below

Names that lead from a folder to one below it are followed one by one, and so each of the lemmas is by induction on them, for
any folder to start from. -/

/-- One name of the way to an entry. -/
theorem entryAt_cons {sub : Folder} (hs : name.utf8ByteSize ≤ Path.maxNameBytes) (h : get? d name = some (.folder sub))
    (rest : List String) : entryAt d (name :: rest) = entryAt sub rest := by
  rw [entryAt, if_neg (Nat.not_lt.mpr hs), h]

/-- A folder is found if the entry is a folder. -/
theorem folderAt_eq_ok {sub : Folder} {parts : List String} :
    folderAt d parts = .ok sub ↔ entryAt d parts = .ok (.folder sub) := by
  unfold folderAt
  split <;> simp_all

/-- The way to a folder goes through a folder. -/
theorem folderAt_cons_ok {sub : Folder} {rest : List String} (h : folderAt d (name :: rest) = .ok sub) :
    name.utf8ByteSize ≤ Path.maxNameBytes ∧ ∃ next, get? d name = some (.folder next) ∧ folderAt next rest = .ok sub := by
  rw [folderAt_eq_ok, entryAt] at h
  by_cases hs : Path.maxNameBytes < name.utf8ByteSize
  · rw [if_pos hs] at h; cases h
  · rw [if_neg hs] at h
    refine ⟨Nat.not_lt.mp hs, ?_⟩
    -- there is an entry under the first name, and it is a folder, as names lead on from it
    cases hg : get? d name with
    | none => rw [hg] at h; cases h
    | some e =>
      cases e with
      | file c =>
        rw [hg] at h
        dsimp only at h
        split at h <;> cases h
      | folder next =>
        rw [hg] at h
        exact ⟨next, rfl, folderAt_eq_ok.mpr h⟩

/-- From a folder the other names lead on. -/
theorem folderAt_cons {sub : Folder} (hs : name.utf8ByteSize ≤ Path.maxNameBytes) (h : get? d name = some (.folder sub))
    (rest : List String) : folderAt d (name :: rest) = folderAt sub rest := by
  rw [folderAt, entryAt_cons hs h, folderAt]

/-- What a change of the folder below leaves there. -/
theorem folderAt_modifyAt (f : Folder → Folder) (parts : List String) : ∀ {root : Folder},
    folderAt root parts = .ok d → folderAt (modifyAt root parts f) parts = .ok (f d) := by
  induction parts with
  | nil => intro root h; cases h; rfl
  | cons p ps ih =>
    intro root h
    obtain ⟨hs, next, hg, hn⟩ := folderAt_cons_ok h
    rw [modifyAt, hg]
    exact (folderAt_cons hs (get?_put_self _ _ _) ps).trans (ih hn)

/-- Two changes of the folder below are one. -/
theorem modifyAt_modifyAt (f g : Folder → Folder) (parts : List String) : ∀ {root : Folder},
    folderAt root parts = .ok d → modifyAt (modifyAt root parts f) parts g = modifyAt root parts fun d => g (f d) := by
  induction parts with
  | nil => intro root _; rfl
  | cons p ps ih =>
    intro root h
    obtain ⟨hs, next, hg, hn⟩ := folderAt_cons_ok h
    -- the changed folder is put back under its name, and is found there by the second change
    simp only [modifyAt, hg, get?_put_self, put_put, ih hn]

/-- A change of the folder below depends on what it makes of the folder that is there. -/
theorem modifyAt_congr {f g : Folder → Folder} (hfg : f d = g d) (parts : List String) : ∀ {root : Folder},
    folderAt root parts = .ok d → modifyAt root parts f = modifyAt root parts g := by
  induction parts with
  | nil => intro root h; cases h; exact hfg
  | cons p ps ih =>
    intro root h
    obtain ⟨hs, next, hg, hn⟩ := folderAt_cons_ok h
    simp only [modifyAt, hg, ih hn]

/-- Whatever led to a folder still does when a folder below is replaced by one with the same folders. -/
theorem folderAt_modifyAt_isOk (hd : SameFolders d d') (parts : List String) : ∀ {root : Folder} (q : List String),
    folderAt root parts = .ok d → (folderAt root q).isOk → (folderAt (modifyAt root parts fun _ => d') q).isOk := by
  induction parts with
  | nil =>
    intro root q h hq
    cases h
    cases q with
    | nil => rfl
    | cons n rest =>
      cases hf : folderAt d (n :: rest) with
      | error e => rw [hf] at hq; cases hq
      | ok sub =>
        -- the folder itself is replaced: the way goes through one of the folders in it, and those are the same
        obtain ⟨hs, next, hg, hn⟩ := folderAt_cons_ok hf
        show (folderAt d' (n :: rest)).isOk
        rw [folderAt_cons hs ((hd n next).mp hg), hn]
        rfl
  | cons p ps ih =>
    intro root q h hq
    obtain ⟨hs, next, hg, hn⟩ := folderAt_cons_ok h
    cases q with
    | nil => rfl
    | cons n rest =>
      cases hf : folderAt root (n :: rest) with
      | error e => rw [hf] at hq; cases hq
      | ok sub =>
        obtain ⟨hs', next', hg', hn'⟩ := folderAt_cons_ok hf
        rw [modifyAt, hg]
        -- the two ways go on through the same folder, or they part here
        by_cases hnp : n = p
        · subst hnp
          cases hg.symm.trans hg'
          rw [folderAt_cons hs' (get?_put_self _ _ _)]
          exact ih rest hn (by rw [hn']; rfl)
        · have hg'' := (get?_put_ne root (.folder (modifyAt next ps fun _ => d')) hnp).trans hg'
          dsimp only
          rw [folderAt_cons hs' hg'', hn']
          rfl

/-- The entry behind a name of the folder below. -/
theorem entryAt_append_name (hs : name.utf8ByteSize ≤ Path.maxNameBytes) (parts : List String) : ∀ {root : Folder},
    folderAt root parts = .ok d → entryAt root (parts ++ [name]) = match get? d name with
      | none => .error .notFound
      | some entry => .ok entry := by
  induction parts with
  | nil =>
    intro root h
    cases h
    rw [List.nil_append, entryAt, if_neg (Nat.not_lt.mpr hs)]
    cases hg : get? d name with
    | none => rfl
    | some entry => cases entry <;> rfl
  | cons p ps ih =>
    intro root h
    obtain ⟨hp, next, hg, hn⟩ := folderAt_cons_ok h
    rw [List.cons_append, entryAt_cons hp hg]
    exact ih hn

end Folder

end SeedCorpus
