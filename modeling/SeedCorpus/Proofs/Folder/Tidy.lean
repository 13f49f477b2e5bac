/-
  Names stay distinct.

  A folder is tidy (`Folder.Tidy`) when the names in it are distinct, and those in every folder below it as well.  Real
  folders are never anything else; as a folder is a list of entries here, it has to be said all the same.

  1. **One folder.**  To put an entry is to take away what has its name and to set it in front, so no name comes twice
     (`Distinct.put`).

  2. **All folders.**  To put an entry and to take one away keep a folder tidy, and so does a tidy change of a folder below
     it (`Tidy.modifyAt`, by induction on the names that lead there).

  3. **Steps.**  Hence files can be removed, written and renamed in a tidy tree by any path, and it stays tidy
     (`tidy_of_remove`, `tidy_of_write`, `tidy_of_rename`).
-/
import SeedCorpus.Proofs.Folder.Order
import SeedCorpus.Proofs.Folder.View

namespace SeedCorpus

namespace Folder

variable {d : Folder} {name : String} {entry : Entry}

/-! ## One folder

Only the names matter here, and not what they stand for. -/

/-- To take an entry away leaves the other names in their order. -/
theorem names_erase_sublist (d : Folder) (name : String) : ((erase d name).map (·.1)).Sublist (d.map (·.1)) :=
  List.filter_sublist.map _

/-- What was taken away is not there any more. -/
theorem notMem_names_erase (d : Folder) (name : String) : name ∉ (erase d name).map (·.1) := by
  intro hm
  obtain ⟨e, he, hname⟩ := List.mem_map.mp hm
  have hne := (List.mem_filter.mp he).2
  rw [hname] at hne
  simp at hne

theorem Distinct.erase (h : d.Distinct) (name : String) : (Folder.erase d name).Distinct :=
  List.Nodup.sublist (names_erase_sublist d name) h

theorem Distinct.put (h : d.Distinct) (name : String) (entry : Entry) : (Folder.put d name entry).Distinct := by
  show ((name, entry) :: Folder.erase d name |>.map (·.1)).Nodup
  rw [List.map_cons, List.nodup_cons]
  exact ⟨notMem_names_erase d name, h.erase name⟩

/-! ## A folder and all folders below it

Tidiness is an inductive predicate, as folders are nested in lists of entries: it is what is needed at one level, and below
that it is asked of the folders that can be looked up. -/

/-- The names in a folder are distinct, and those in every folder below it. -/
inductive Tidy : Folder → Prop where
  /-- One level. -/
  | intro {d : Folder} (distinct : d.Distinct) (below : ∀ name sub, get? d name = some (.folder sub) → Tidy sub) : Tidy d

/-- The names in a tidy folder are distinct. -/
theorem Tidy.distinct (h : d.Tidy) : d.Distinct := by
  cases h with
  | intro hd _ => exact hd

/-- The folders in a tidy folder are tidy. -/
theorem Tidy.sub (h : d.Tidy) {sub : Folder} (hs : get? d name = some (.folder sub)) : sub.Tidy := by
  cases h with
  | intro _ hb => exact hb name sub hs

/-- An entry is taken away. -/
theorem Tidy.erase (h : d.Tidy) (name : String) : (Folder.erase d name).Tidy := by
  refine .intro (h.distinct.erase name) fun n sub hs => ?_
  -- a folder that is looked up now has another name, and was there before
  by_cases hn : n = name
  · rw [hn, get?_erase_self] at hs
    cases hs
  · rw [get?_erase_ne d hn] at hs
    exact h.sub hs

/-- An entry is put that is tidy itself, if it is a folder. -/
theorem Tidy.put (h : d.Tidy) (name : String) (he : ∀ sub, entry = .folder sub → Tidy sub) :
    (Folder.put d name entry).Tidy := by
  refine .intro (h.distinct.put name entry) fun n sub hs => ?_
  by_cases hn : n = name
  · rw [hn, get?_put_self] at hs
    exact he sub (Option.some.inj hs)
  · rw [get?_put_ne d entry hn] at hs
    exact h.sub hs

/-- A change below that keeps folders tidy keeps the whole tidy. -/
theorem Tidy.modifyAt {f : Folder → Folder} (hf : ∀ d : Folder, d.Tidy → (f d).Tidy) (parts : List String) :
    ∀ {root : Folder}, root.Tidy → (Folder.modifyAt root parts f).Tidy := by
  induction parts with
  | nil => exact fun h => hf _ h
  | cons p ps ih =>
    intro root h
    rw [Folder.modifyAt]
    -- the first name leads to a folder, which is put back with the change in it, or nothing happens
    split
    · rename_i sub hs
      refine h.put p fun sub' hsub => ?_
      cases hsub
      exact ih (h.sub hs)
    · exact h

/-- What names lead to from a tidy folder is tidy, if it is a folder. -/
theorem Tidy.entryAt (parts : List String) : ∀ {root sub : Folder}, root.Tidy →
    Folder.entryAt root parts = .ok (.folder sub) → sub.Tidy := by
  induction parts with
  | nil =>
    intro root sub h he
    cases he
    exact h
  | cons p ps ih =>
    intro root sub h he
    have hfolder : folderAt root (p :: ps) = .ok sub := folderAt_eq_ok.mpr he
    obtain ⟨-, next, hg, hn⟩ := folderAt_cons_ok hfolder
    exact ih (h.sub hg) (folderAt_eq_ok.mp hn)

end Folder

/-! ## Steps on files

A step looks for its place and then changes the folder there.  It may fail on the way; only what it leaves when it succeeds
matters. -/

namespace FileTree

open SeedCorpus.Folder

variable {t t' : FileTree} {path newPath : String} {content : ByteArray}

/-- An entry is taken away from the folder in some place. -/
theorem tidy_erase (h : t.root.Tidy) (parents : List String) (name : String) : (t.erase parents name).root.Tidy :=
  h.modifyAt (fun _ hd => hd.erase name) parents

/-- An entry is put into the folder in some place. -/
theorem tidy_put (h : t.root.Tidy) (parents : List String) (name : String) {entry : Entry}
    (he : ∀ sub, entry = .folder sub → Tidy sub) : (t.put parents name entry).root.Tidy :=
  h.modifyAt (fun _ hd => hd.put name he) parents

/-- A file is removed. -/
theorem tidy_of_remove (h : t.root.Tidy) (hok : t.remove path = .ok t') : t'.root.Tidy := by
  obtain ⟨place, -, hok⟩ := bind_ok hok
  obtain ⟨entry, -, hok⟩ := bind_ok hok
  cases entry with
  | folder sub => cases hok
  | file content =>
    obtain ⟨⟨parents, name⟩, -, hok⟩ := bind_ok hok
    cases hok
    exact tidy_erase h parents name

/-- A file is written, or a device takes what is written. -/
theorem tidy_of_write (h : t.root.Tidy) (hok : t.write path content = .ok t') : t'.root.Tidy := by
  obtain ⟨place, -, hok⟩ := bind_ok hok
  obtain ⟨⟨parents, name⟩, -, hok⟩ := bind_ok hok
  dsimp only at hok
  split at hok
  · cases hok
  · split at hok
    · cases hok
    · split at hok
      · -- the device that takes nothing
        split at hok
        · cases hok
          exact h
        · cases hok
      · cases hok
        exact h
      · cases hok
        exact tidy_put h parents name nofun

/-- A file or a folder gets another place. -/
theorem tidy_of_rename (h : t.root.Tidy) (hok : t.rename path newPath = .ok t') : t'.root.Tidy := by
  obtain ⟨place, -, hok⟩ := bind_ok hok
  obtain ⟨newPlace, -, hok⟩ := bind_ok hok
  obtain ⟨entry, hentry, hok⟩ := bind_ok hok
  obtain ⟨⟨parents, name⟩, -, hok⟩ := bind_ok hok
  obtain ⟨⟨newParents, newName⟩, -, hok⟩ := bind_ok hok
  -- a folder that moves comes from the tree, and so is tidy
  have hmoved : ∀ sub, entry = .folder sub → Tidy sub := by
    rintro sub rfl
    exact Tidy.entryAt place.parts h (entryAt_of_entryOf hentry)
  dsimp only at hok
  split at hok
  · cases hok
  · split at hok
    · cases hok
      exact h
    · split at hok
      · cases hok
      · -- whatever stands at the new place, it gives way
        have hdone : ((t.erase parents name).put newParents newName entry).root.Tidy :=
          tidy_put (tidy_erase h parents name) newParents newName hmoved
        split at hok
        · obtain ⟨-, -, hok⟩ := bind_ok hok
          cases hok
          exact hdone
        · cases hok
          exact hdone

end FileTree

end SeedCorpus
