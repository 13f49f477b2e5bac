/-
  Work on the files of one folder.

  A path that leads to a folder of a tree (`FileTree.LeadsTo`) still does after every step on the files in it, and the steps
  are steps on that folder.

  1. **To see.**  What is read behind the path is `Folder.get?` (`LeadsTo.read_join`, `LeadsTo.hasEntry_join`).

  2. **To change.**  To write, remove or rename behind the path is `Folder.put` and `Folder.erase` (`LeadsTo.write_join`,
     `LeadsTo.remove_join`, `LeadsTo.rename_join`), with everything else in the tree as it was (`FileTree.within`).

  3. **Back.**  If such a step succeeds, then the name could be used behind the path (`LeadsTo.reaches_of_read` and others).
     This is for folders of which nothing is known in advance.

  The folder of the devices is left out (`LeadsTo.noDevices`): what is written to a device is not kept.  A name behind the
  path can be used when the whole path is not too long (`FileTree.Reaches`).
-/
import SeedCorpus.Proofs.Folder.Lookup

namespace SeedCorpus

namespace FileTree

open SeedCorpus.Folder SeedCorpus.Path

/-- The tree with the folder that names lead to replaced by another. -/
def within (t : FileTree) (parts : List String) (d : Folder) : FileTree :=
  { t with root := t.root.modifyAt parts fun _ => d }

/-- The path leads to the folder `d`, by way of the names `parts` from the outermost folder. -/
structure LeadsTo (t : FileTree) (path : String) (parts : List String) (d : Folder) : Prop where
  /-- There is a path. -/
  nonempty : path ≠ ""
  /-- It holds no character that ends names. -/
  noNul : Char.ofNat 0 ∉ path.toList
  /-- It is not too long. -/
  short : path.utf8ByteSize ≤ maxBytes
  /-- Its pieces come down to the names. -/
  walk : t.root.walk (if isAbsolute path then [] else t.here) (Path.names path) = .ok parts
  /-- The names lead to the folder. -/
  folder : t.root.folderAt parts = .ok d
  /-- It is not the folder of the devices. -/
  noDevices : parts ≠ ["dev"]

/-- A name that can be used behind a path. -/
structure Reaches (path name : String) : Prop where
  /-- It is the name of an entry. -/
  isName : IsName name
  /-- The whole path is not too long. -/
  short : (join path name).utf8ByteSize ≤ maxBytes

variable {t : FileTree} {path : String} {parts : List String} {d d' : Folder} {name newName : String}

/-- What the acts of a step have come to, when it succeeded. -/
theorem bind_ok {α β : Type} {x : Except FileError α} {g : α → Except FileError β} {b : β}
    (h : (x >>= g) = .ok b) : ∃ a, x = .ok a ∧ g a = .ok b := by
  cases x with
  | error e => cases h
  | ok a => exact ⟨a, rfl, h⟩

/-- The place of a name in a folder. -/
def nameIn (parts : List String) (name : String) : Location := { parts := parts ++ [name], folderOnly := false }

/-- What stands at a place stands at the end of its names. -/
theorem entryAt_of_entryOf {place : Location} {entry : Entry} (h : t.entryOf place = .ok entry) :
    t.root.entryAt place.parts = .ok entry := by
  unfold entryOf at h
  cases he : t.root.entryAt place.parts with
  | error e => rw [he] at h; cases h
  | ok other =>
    rw [he] at h
    simp only [bind, Except.bind] at h
    split at h
    · cases h
    · exact h

/-- A path to a folder goes by way of names. -/
theorem leadsTo_of_findFolder (h : t.findFolder path = .ok d)
    (hdev : ∀ place, t.locate path = .ok place → place.parts ≠ ["dev"]) : ∃ parts, t.LeadsTo path parts d := by
  unfold findFolder find at h
  cases hl : t.locate path with
  | error e => rw [hl] at h; cases h
  | ok place =>
    simp only [hl, bind, Except.bind] at h
    have hentry : t.root.entryAt place.parts = .ok (.folder d) := by
      cases he : t.entryOf place with
      | error e => rw [he] at h; cases h
      | ok entry =>
        rw [he] at h
        cases entry with
        | file content => cases h
        | folder sub => cases h; exact entryAt_of_entryOf he
    have hplace := hdev place hl
    -- the place was found, so none of the refusals applies to the path
    unfold locate at hl
    split at hl
    · cases hl
    · rename_i hnul
      split at hl
      · cases hl
      · rename_i hempty
        split at hl
        · cases hl
        · rename_i hlong
          dsimp only at hl
          split at hl
          · rename_i parts hwalk
            cases hl
            exact ⟨parts, {
              nonempty := fun he => hempty (String.isEmpty_iff.mpr he)
              noNul := fun hm => hnul (List.contains_iff_mem.mpr hm)
              short := Nat.not_lt.mp hlong
              walk := hwalk
              folder := folderAt_eq_ok.mpr hentry
              noDevices := hplace }⟩
          · cases hl

/-- Where a path with one more piece leads, unless it holds the character that ends names or is too long. -/
theorem LeadsTo.locate_plain (h : t.LeadsTo path parts d) (hn : IsPlain name) :
    t.locate (join path name) =
      if Char.ofNat 0 ∈ name.toList then .error .nulInName
      else if maxBytes < (join path name).utf8ByteSize then .error .nameTooLong
      else .ok (nameIn parts name) := by
  obtain ⟨between, hj, hb⟩ := toList_join h.nonempty hn.noSlash
  obtain ⟨before, hnames, -⟩ := names_join h.nonempty hn.noSlash
  -- the character that ends names can only come from the name, as there is none in the path
  have hnul : (join path name).toList.contains (Char.ofNat 0) = decide (Char.ofNat 0 ∈ name.toList) := by
    rw [hj, List.contains_eq_mem, decide_eq_decide, List.mem_append, List.mem_append]
    refine or_iff_right ?_
    rintro (hp | hb')
    · exact h.noNul hp
    · rcases hb with ⟨rfl, -⟩ | rfl
      · cases hb'
      · exact absurd (List.mem_singleton.mp hb') (by decide)
  have hempty : (join path name).isEmpty = false := by
    rw [String.isEmpty_eq_false_iff]
    intro he
    have hnil := String.toList_eq_nil_iff.mpr he
    rw [hj, List.append_assoc] at hnil
    exact h.nonempty (String.toList_eq_nil_iff.mp (List.append_eq_nil_iff.mp hnil).1)
  -- the name is no dot, so that the place need not be a folder
  have hlast : ["", ".", ".."].contains (((before ++ [name]).getLast?).getD "") = false := by
    simp [hn.nonempty, hn.notDot, hn.notDots]
  have hwalk := walk_join _ h.nonempty hn h.walk
  rw [hnames] at hwalk
  rw [locate, hnul, hempty, isAbsolute_join h.nonempty hn.noSlash]
  simp only [decide_eq_true_eq, Bool.false_eq_true, if_false, hnames, hwalk, hlast]
  rfl

/-- A path with a usable name behind it leads to the place of that name. -/
theorem LeadsTo.locate_join (h : t.LeadsTo path parts d) (hn : Reaches path name) :
    t.locate (join path name) = .ok (nameIn parts name) := by
  rw [h.locate_plain hn.isName.isPlain, if_neg hn.isName.noNul, if_neg (Nat.not_lt.mpr hn.short)]

/-- At the place of a name there is what the folder has under it. -/
theorem LeadsTo.entryAt_name (h : t.LeadsTo path parts d) (hn : IsName name) :
    t.root.entryAt (parts ++ [name]) = match get? d name with
      | none => .error .notFound
      | some entry => .ok entry :=
  entryAt_append_name hn.short parts h.folder

/-- The place of a name is in the folder that the path leads to. -/
theorem LeadsTo.parentOf_name (h : t.LeadsTo path parts d) (hn : IsName name) :
    t.parentOf (nameIn parts name) = .ok (parts, name) := by
  have hdrop : (parts ++ [name]).dropLast = parts := List.dropLast_concat
  simp only [parentOf, nameIn, List.getLast?_concat, hdrop, h.folder, if_neg (Nat.not_lt.mpr hn.short)]
  rfl

theorem LeadsTo.at?_name (h : t.LeadsTo path parts d) (name : String) : Device.at? (parts ++ [name]) = none := by
  unfold Device.at?
  split
  · rename_i n he
    have hdev : parts = ["dev"] := List.append_inj_left' (he : parts ++ [name] = ["dev"] ++ [n]) rfl
    exact absurd hdev h.noDevices
  · rfl

/-! ## What can be seen

Both steps look for a place and then for its entry. -/

/-- A name behind the path leads to an entry if the folder has one. -/
theorem LeadsTo.hasEntry_join (h : t.LeadsTo path parts d) (hn : Reaches path name) :
    t.hasEntry (join path name) = (get? d name).isSome := by
  rw [hasEntry, find, h.locate_join hn]
  show (t.entryOf (nameIn parts name)).isOk = _
  rw [entryOf, nameIn, h.entryAt_name hn.isName]
  cases get? d name <;> rfl

theorem LeadsTo.entryOf_file (h : t.LeadsTo path parts d) (hn : IsName name) {content : ByteArray}
    (hf : get? d name = some (.file content)) : t.entryOf (nameIn parts name) = .ok (.file content) := by
  rw [entryOf, nameIn, h.entryAt_name hn, hf]
  rfl

/-- What is read behind the path is the content of the file. -/
theorem LeadsTo.read_join (h : t.LeadsTo path parts d) (hn : Reaches path name) {content : ByteArray}
    (hf : get? d name = some (.file content)) : t.read (join path name) = .ok content := by
  have hd : (Device.at? (nameIn parts name).parts).isSome = false := by rw [nameIn, h.at?_name]; rfl
  rw [read, h.locate_join hn]
  show (do let e ← t.entryOf (nameIn parts name); _) = _
  rw [h.entryOf_file hn.isName hf]
  show (Except.ok (if (Device.at? (nameIn parts name).parts).isSome then .empty else content) : Except FileError _) = _
  rw [hd]
  rfl

/-! ## What can be changed

Every change is a change of the folder that the path leads to.  Two things follow for each of them: the path leads to the
changed folder (`LeadsTo.within`), and nothing outside of it is different (`SameOutside`). -/

/-- The two trees differ at most in the folder that names lead to. -/
def SameOutside (t t' : FileTree) (parts : List String) : Prop := t' = t ∨ ∃ d', t' = t.within parts d'

/-- If the folder is replaced by one with the same folders, then the path leads to that one. -/
theorem LeadsTo.within (h : t.LeadsTo path parts d) (hd : SameFolders d d') :
    (t.within parts d').LeadsTo path parts d' where
  nonempty := h.nonempty
  noNul := h.noNul
  short := h.short
  walk := walk_mono (fun q hq => folderAt_modifyAt_isOk hd parts q h.folder hq) _ _ _ h.walk
  folder := folderAt_modifyAt _ parts h.folder
  noDevices := h.noDevices

/-- The last change stays. -/
theorem LeadsTo.within_within (h : t.LeadsTo path parts d) (d' d'' : Folder) :
    (t.within parts d').within parts d'' = t.within parts d'' := by
  show ({ t with root := _ } : FileTree) = { t with root := _ }
  congr 1
  exact modifyAt_modifyAt _ _ parts h.folder

/-- To put an entry at the end of the names is to change the folder there. -/
theorem LeadsTo.put_eq (h : t.LeadsTo path parts d) (name : String) (entry : Entry) :
    t.put parts name entry = t.within parts (d.put name entry) := by
  show ({ t with root := _ } : FileTree) = { t with root := _ }
  congr 1
  exact modifyAt_congr (f := (Folder.put · name entry)) (g := fun _ => d.put name entry) rfl parts h.folder

/-- To take one away is, too. -/
theorem LeadsTo.erase_eq (h : t.LeadsTo path parts d) (name : String) :
    t.erase parts name = t.within parts (d.erase name) := by
  show ({ t with root := _ } : FileTree) = { t with root := _ }
  congr 1
  exact modifyAt_congr (f := (Folder.erase · name)) (g := fun _ => d.erase name) rfl parts h.folder

/-- Steps in the folder, one after the other, leave the rest as it was. -/
theorem SameOutside.within {t' : FileTree} (h : t.LeadsTo path parts d) (ho : SameOutside t t' parts) (d' : Folder) :
    SameOutside t (t'.within parts d') parts := by
  rcases ho with rfl | ⟨d'', rfl⟩
  · exact Or.inr ⟨d', rfl⟩
  · exact Or.inr ⟨d', h.within_within d'' d'⟩

theorem SameOutside.trans {t' t'' : FileTree} (h : t.LeadsTo path parts d) (ho : SameOutside t t' parts)
    (ho' : SameOutside t' t'' parts) : SameOutside t t'' parts := by
  rcases ho' with rfl | ⟨d', rfl⟩
  · exact ho
  · exact ho.within h d'

/-- A file behind the path is removed from the folder. -/
theorem LeadsTo.remove_join (h : t.LeadsTo path parts d) (hn : Reaches path name) {content : ByteArray}
    (hf : get? d name = some (.file content)) : t.remove (join path name) = .ok (t.within parts (d.erase name)) := by
  simp only [remove, bind, Except.bind, h.locate_join hn, h.entryOf_file hn.isName hf, h.parentOf_name hn.isName,
    h.erase_eq]

/-- A file is written behind the path where no folder stands. -/
theorem LeadsTo.write_join (h : t.LeadsTo path parts d) (hn : Reaches path name) (hf : isFolderAt d name = false)
    (content : ByteArray) : t.write (join path name) content = .ok (t.within parts (d.put name (.file content))) := by
  have hentry : ∀ sub, t.root.entryAt (parts ++ [name]) ≠ .ok (.folder sub) := by
    intro sub he
    rw [h.entryAt_name hn.isName] at he
    cases hg : get? d name with
    | none => rw [hg] at he; cases he
    | some entry => rw [hg] at he; cases he; exact get?_ne_folder hf sub hg
  simp only [write, bind, Except.bind, h.locate_join hn, h.parentOf_name hn.isName]
  -- `hentry` rules out the branch in which a folder stands there
  simp only [nameIn, h.at?_name, h.put_eq, Bool.false_eq_true, if_false]

/-- A file behind the path gets a free name behind the same path. -/
theorem LeadsTo.rename_join (h : t.LeadsTo path parts d) (hn : Reaches path name) (hn' : Reaches path newName)
    {content : ByteArray} (hf : get? d name = some (.file content)) (hfree : get? d newName = none) :
    t.rename (join path name) (join path newName)
      = .ok (t.within parts ((d.erase name).put newName (.file content))) := by
  have hne : newName ≠ name := by rintro rfl; rw [hf] at hfree; cases hfree
  have hparts : parts ++ [name] ≠ parts ++ [newName] := by
    intro he
    exact hne (List.singleton_inj.mp (List.append_cancel_left he)).symm
  have hpre : (parts ++ [name]).isPrefixOf (parts ++ [newName]) = false := by
    rw [Bool.eq_false_iff, ne_eq, List.isPrefixOf_iff_prefix]
    intro hp
    exact hparts (hp.eq_of_length (by simp))
  -- the file is taken away first and put under the new name then, with the path still leading there
  have herase := h.within (sameFolders_erase (isFolderAt_of_file hf))
  simp only [rename, bind, Except.bind, h.locate_join hn, h.locate_join hn', h.entryOf_file hn.isName hf,
    h.parentOf_name hn.isName, h.parentOf_name hn'.isName]
  simp only [nameIn, Bool.false_and, Bool.false_eq_true, if_false, if_neg hparts, hpre, h.entryAt_name hn'.isName, hfree]
  rw [h.erase_eq, herase.put_eq, h.within_within]

/-! ## What a step that succeeds says about its paths

The program does not look whether it can use a name; the tree refuses, or it does not. -/

/-- A path that leads to some place is not too long, and the place is that of the name. -/
theorem LeadsTo.short_of_locate (h : t.LeadsTo path parts d) (hn : IsPlain name) {place : Location}
    (hok : t.locate (join path name) = .ok place) :
    Char.ofNat 0 ∉ name.toList ∧ (join path name).utf8ByteSize ≤ maxBytes ∧ place = nameIn parts name := by
  rw [h.locate_plain hn] at hok
  split at hok
  · cases hok
  · rename_i hnul
    split at hok
    · cases hok
    · rename_i hlong
      cases hok
      exact ⟨hnul, Nat.not_lt.mp hlong, rfl⟩

/-- A name behind the path can be used if what it stands for can be read. -/
theorem LeadsTo.reaches_of_read (h : t.LeadsTo path parts d) (hn : IsName name) {content : ByteArray}
    (hok : t.read (join path name) = .ok content) : Reaches path name := by
  obtain ⟨place, hplace, -⟩ := bind_ok hok
  exact ⟨hn, (h.short_of_locate hn.isPlain hplace).2.1⟩

/-- A name that has a parent is not too long. -/
theorem isName_of_parentOf (hn : IsPlain name) (hnul : Char.ofNat 0 ∉ name.toList) {parent : List String × String}
    (hparent : t.parentOf (nameIn parts name) = .ok parent) : IsName name := by
  refine ⟨hn.nonempty, hn.notDot, hn.notDots, hn.noSlash, hnul, Nat.not_lt.mp fun hlong => ?_⟩
  simp only [parentOf, nameIn, List.getLast?_concat] at hparent
  obtain ⟨sub, -, hparent⟩ := bind_ok hparent
  rw [if_pos hlong] at hparent
  cases hparent

/-- A name behind the path can be used if a file can be given it. -/
theorem LeadsTo.reaches_of_rename (h : t.LeadsTo path parts d) (hn : IsPlain newName) {oldPath : String} {t' : FileTree}
    (hok : t.rename oldPath (join path newName) = .ok t') : Reaches path newName := by
  obtain ⟨place, -, hok⟩ := bind_ok hok
  obtain ⟨newPlace, hplace, hok⟩ := bind_ok hok
  obtain ⟨entry, -, hok⟩ := bind_ok hok
  obtain ⟨old, -, hok⟩ := bind_ok hok
  obtain ⟨new, hparent, -⟩ := bind_ok hok
  obtain ⟨hnul, hshort, rfl⟩ := h.short_of_locate hn hplace
  exact ⟨isName_of_parentOf hn hnul hparent, hshort⟩

/-- A name behind the path can be used if a file can be written under it. -/
theorem LeadsTo.reaches_of_write (h : t.LeadsTo path parts d) (hn : IsPlain name) {content : ByteArray} {t' : FileTree}
    (hok : t.write (join path name) content = .ok t') : Reaches path name := by
  obtain ⟨place, hplace, hok⟩ := bind_ok hok
  obtain ⟨new, hparent, -⟩ := bind_ok hok
  obtain ⟨hnul, hshort, rfl⟩ := h.short_of_locate hn hplace
  exact ⟨isName_of_parentOf hn hnul hparent, hshort⟩

/-- No file is written where a folder stands. -/
theorem LeadsTo.write_isFolder (h : t.LeadsTo path parts d) (hn : IsPlain name) (hf : isFolderAt d name = true)
    (content : ByteArray) : ∃ e, t.write (join path name) content = .error e := by
  cases hwrite : t.write (join path name) content with
  | error e => exact ⟨e, rfl⟩
  | ok t' =>
    exfalso
    have hreach := h.reaches_of_write hn hwrite
    -- if it had been written, then under a name that can be used, and there stands a folder
    have hentry : ∃ sub, t.root.entryAt (nameIn parts name).parts = .ok (.folder sub) := by
      rw [nameIn, h.entryAt_name hreach.isName]
      unfold isFolderAt at hf
      cases hg : get? d name with
      | none => rw [hg] at hf; cases hf
      | some entry =>
        cases entry with
        | file content => rw [hg] at hf; cases hf
        | folder sub => exact ⟨sub, rfl⟩
    obtain ⟨sub, hentry⟩ := hentry
    simp only [write, bind, Except.bind, h.locate_join hreach, h.parentOf_name hreach.isName, hentry] at hwrite
    cases hwrite

/-- The path locates the names. -/
theorem LeadsTo.locate_path (h : t.LeadsTo path parts d) : ∃ folderOnly, t.locate path = .ok ⟨parts, folderOnly⟩ := by
  have hnul : path.toList.contains (Char.ofNat 0) = false := by
    rw [List.contains_eq_mem, decide_eq_false h.noNul]
  have hempty : path.isEmpty = false := String.isEmpty_eq_false_iff.mpr h.nonempty
  rw [locate, hnul, hempty]
  simp only [Bool.false_eq_true, if_false, if_neg (Nat.not_lt.mpr h.short), h.walk]
  exact ⟨_, rfl⟩

/-- The path leads to the folder that is found there. -/
theorem LeadsTo.findFolder (h : t.LeadsTo path parts d) : t.findFolder path = .ok d := by
  obtain ⟨folderOnly, hlocate⟩ := h.locate_path
  have hentry : t.root.entryAt parts = .ok (.folder d) := folderAt_eq_ok.mp h.folder
  simp only [FileTree.findFolder, find, entryOf, hlocate, hentry, bind, Except.bind, Entry.isFile, Bool.and_false,
    Bool.false_eq_true, if_false]

end FileTree

end SeedCorpus
