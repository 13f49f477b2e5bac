/-
  Files written one after the other.

  To write files into the folder that a path leads to is to put them into that folder in their order (`Folder.putAll`), up
  to the first that has the name of a folder (`Folder.unhindered`, `LeadsTo.writeFiles_upTo`).  As long as no folder stands
  in the way, that is all of them (`LeadsTo.writeFiles`).  What a name stands for afterwards is what was written last under
  it (`get?_putAll`).

  Both directions are used: files that can be written are written, and files that have been written could be
  (`LeadsTo.of_writeFiles`).
-/
import SeedCorpus.Proofs.Folder.View
import SeedCorpus.Synthesis.Program

namespace SeedCorpus

/-! ## Files in a folder

Only the folder matters here.  Which file is the last one of a name is told by looking through the list from its end. -/

namespace Folder

/-- The folder with files put into it, one after the other. -/
def putAll (d : Folder) (files : List AuxFile) : Folder :=
  files.foldl (fun d f => d.put f.name (.file f.contents.toUTF8)) d

/-- The files in front of the first that has the name of a folder. -/
def unhindered (d : Folder) (files : List AuxFile) : List AuxFile := files.takeWhile fun f => !isFolderAt d f.name

/-- No name of a folder stands for a folder. -/
def OnlyFiles (d : Folder) : Prop := ∀ name, isFolderAt d name = false

variable {d : Folder} {files : List AuxFile} {name : String}

/-- More files are put behind the others. -/
theorem putAll_append (d : Folder) (files more : List AuxFile) :
    putAll d (files ++ more) = putAll (putAll d files) more := List.foldl_append

/-- A file in front that can be written is written. -/
theorem unhindered_cons_free {f : AuxFile} (h : isFolderAt d f.name = false) (files : List AuxFile) :
    unhindered d (f :: files) = f :: unhindered d files := List.takeWhile_cons_of_pos (by simp [h])

/-- If the first file has the name of a folder, then nothing is written. -/
theorem unhindered_cons_folder {f : AuxFile} (h : isFolderAt d f.name = true) (files : List AuxFile) :
    unhindered d (f :: files) = [] := List.takeWhile_cons_of_neg (by simp [h])

/-- Files that are free of folders go on with the free ones of those behind them. -/
theorem unhindered_append (h : ∀ f ∈ files, isFolderAt d f.name = false) (more : List AuxFile) :
    unhindered d (files ++ more) = files ++ unhindered d more := List.takeWhile_append_of_pos fun f hf => by simp [h f hf]

/-- If no file has the name of a folder, then all are written. -/
theorem unhindered_of_free (h : ∀ f ∈ files, isFolderAt d f.name = false) : unhindered d files = files := by
  have happend : unhindered d (files ++ []) = files ++ [] := unhindered_append h []
  rwa [List.append_nil] at happend

theorem onlyFiles_nil : OnlyFiles [] := fun _ => rfl

theorem OnlyFiles.put (h : OnlyFiles d) (name : String) (content : ByteArray) :
    OnlyFiles (Folder.put d name (.file content)) := by
  intro other
  by_cases he : other = name
  · rw [he]
    exact isFolderAt_of_file (get?_put_self d name _)
  · rw [isFolderAt, get?_put_ne _ _ he]
    exact h other

/-- Files among files. -/
theorem OnlyFiles.putAll (h : OnlyFiles d) (files : List AuxFile) : OnlyFiles (putAll d files) := by
  induction files generalizing d with
  | nil => exact h
  | cons f files ih => exact ih (h.put f.name f.contents.toUTF8)

/-- Each name stands for what was put last under it, or for what it stood for. -/
theorem get?_putAll (files : List AuxFile) (name : String) : ∀ d : Folder, get? (putAll d files) name =
    ((files.findRev? (·.name = name)).map fun f => .file f.contents.toUTF8).or (get? d name) := by
  induction files with
  | nil =>
    intro d
    rfl
  | cons f files ih =>
    intro d
    show get? (putAll (Folder.put d f.name _) files) name = _
    rw [ih, List.findRev?]
    -- a later file has the name, or the first one does, or none
    cases files.findRev? (·.name = name) with
    | some g => rfl
    | none =>
      by_cases he : f.name = name
      · subst he
        rw [get?_put_self]
        simp
      · rw [get?_put_ne _ _ (Ne.symm he)]
        simp [he]

/-- A name that no file has stands for what it stood for. -/
theorem get?_putAll_of_notMem (h : name ∉ files.map (·.name)) : get? (putAll d files) name = get? d name := by
  induction files generalizing d with
  | nil => rfl
  | cons f files ih =>
    obtain ⟨hne, hrest⟩ := not_or.mp fun hm => h (List.mem_cons.mpr hm)
    show get? (putAll (Folder.put d f.name _) files) name = _
    rw [ih hrest, get?_put_ne _ _ hne]

/-- The name of a file stands for that file, if no other one has that name. -/
theorem get?_putAll_of_mem (hnodup : (files.map (·.name)).Nodup) {f : AuxFile} (hf : f ∈ files) :
    get? (putAll d files) f.name = some (.file f.contents.toUTF8) := by
  induction files generalizing d with
  | nil => cases hf
  | cons g files ih =>
    obtain ⟨hnew, hnodup⟩ := List.nodup_cons.mp hnodup
    show get? (putAll (Folder.put d g.name _) files) f.name = _
    rcases List.mem_cons.mp hf with rfl | hf
    · rw [get?_putAll_of_notMem hnew, get?_put_self]
    · exact ih hnodup hf

/-- Of the files of one name that many lists hold, the one stays that was put last. -/
theorem get?_putAll_last {lists : Nat → List AuxFile} (hnodup : ∀ k, ((lists k).map (·.name)).Nodup) {k count : Nat}
    (hk : k < count) (hm : name ∈ (lists k).map (·.name)) :
    ∃ last f, k ≤ last ∧ last < count ∧ f ∈ lists last ∧ f.name = name ∧
      get? (putAll d ((List.range count).flatMap lists)) name = some (.file f.contents.toUTF8) ∧
      ∀ j, last < j → j < count → name ∉ (lists j).map (·.name) := by
  induction count with
  | zero => exact absurd hk (Nat.not_lt_zero k)
  | succ count ih =>
    rw [List.range_succ, List.flatMap_append, List.flatMap_singleton, putAll_append]
    -- the last list has a file of the name, or it leaves the name alone
    by_cases hlast : name ∈ (lists count).map (·.name)
    · obtain ⟨f, hf, rfl⟩ := List.mem_map.mp hlast
      exact ⟨count, f, Nat.le_of_lt_succ hk, Nat.lt_succ_self count, hf, rfl, get?_putAll_of_mem (hnodup count) hf,
        fun j hj hj' => absurd hj' (Nat.not_lt.mpr hj)⟩
    · have hlt : k < count := Nat.lt_of_le_of_ne (Nat.le_of_lt_succ hk) fun he => hlast (he ▸ hm)
      obtain ⟨last, f, hle, hcount, hf, hname, hget, hlater⟩ := ih hlt
      refine ⟨last, f, hle, Nat.lt_succ_of_lt hcount, hf, hname, ?_, fun j hj hj' => ?_⟩
      · rw [get?_putAll_of_notMem hlast, hget]
      · rcases Nat.lt_or_eq_of_le (Nat.le_of_lt_succ hj') with hj' | rfl
        · exact hlater j hj hj'
        · exact hlast

end Folder

/-! ## Files behind a path

A program is written with its source as the first of its files. -/

/-- A program is written with its files. -/
theorem Program.writeTo_ok {p : Program} {t t' : FileTree} {path name : String}
    (h : writeFiles path t (p.files name) = (.ok (), t')) :
    p.writeTo t path name = (.ok (Path.join path (name ++ ".c")), t') := by
  unfold Program.writeTo
  rw [h]

/-- A program is not written if one of its files is not. -/
theorem Program.writeTo_error {p : Program} {t t' : FileTree} {path name : String} {e : FileError}
    (h : writeFiles path t (p.files name) = (.error e, t')) : p.writeTo t path name = (.error (.storage e), t') := by
  unfold Program.writeTo
  rw [h]

/-- If a program is written, then its files are. -/
theorem Program.writeFiles_of_writeTo {p : Program} {t t' : FileTree} {path name source : String}
    (h : p.writeTo t path name = (.ok source, t')) : writeFiles path t (p.files name) = (.ok (), t') := by
  unfold Program.writeTo at h
  split at h
  · rename_i hfiles
    cases h
    exact hfiles
  · cases h

/-- The first file is written, and then the others. -/
theorem writeFiles_cons (path : String) (t : FileTree) (f : AuxFile) (files : List AuxFile) :
    writeFiles path t (f :: files) = match t.write (Path.join path f.name) f.contents.toUTF8 with
      | .ok t => writeFiles path t files
      | .error e => (.error e, t) := by
  rfl

namespace FileTree

open SeedCorpus.Folder SeedCorpus.Path

variable {t : FileTree} {path : String} {parts : List String} {d : Folder}

/-- Files are written into the folder that a path leads to, up to the first that has the name of a folder, and nothing else
changes. -/
theorem LeadsTo.writeFiles_upTo (files : List AuxFile) : ∀ {t : FileTree} {d : Folder}, t.LeadsTo path parts d →
    (∀ f ∈ files, IsPlain f.name) → (∀ f ∈ files, isFolderAt d f.name = false → Reaches path f.name) →
    ∃ result t', writeFiles path t files = (result, t') ∧
      t'.LeadsTo path parts (putAll d (unhindered d files)) ∧ SameOutside t t' parts ∧
      (result = .ok () ↔ ∀ f ∈ files, isFolderAt d f.name = false) := by
  induction files with
  | nil => exact fun h _ _ => ⟨.ok (), _, rfl, h, Or.inl rfl, iff_of_true rfl nofun⟩
  | cons f files ih =>
    intro t d h hplain hreach
    obtain ⟨hf, hplain⟩ := List.forall_mem_cons.mp hplain
    obtain ⟨hfirst, hreach⟩ := List.forall_mem_cons.mp hreach
    rw [writeFiles_cons]
    -- a folder stands in the way of the first file, or the file is written and the folders are where they were
    cases hfolder : isFolderAt d f.name with
    | true =>
      obtain ⟨e, hwrite⟩ := h.write_isFolder hf hfolder f.contents.toUTF8
      rw [hwrite, unhindered_cons_folder hfolder]
      refine ⟨.error e, t, rfl, h, Or.inl rfl, iff_of_false nofun fun hall => ?_⟩
      rw [hall f List.mem_cons_self] at hfolder
      cases hfolder
    | false =>
      have hsame := isFolderAt_put hfolder f.contents.toUTF8
      have hnext := h.within (sameFolders_put hfolder f.contents.toUTF8)
      obtain ⟨result, t', hrest, hleads, houtside, hiff⟩ := ih hnext hplain (by rw [hsame]; exact hreach)
      rw [unhindered, hsame] at hleads
      rw [hsame] at hiff
      rw [h.write_join (hfirst hfolder) hfolder, unhindered_cons_free hfolder]
      refine ⟨result, t', hrest, hleads, SameOutside.trans h (Or.inr ⟨_, rfl⟩) houtside, hiff.trans ?_⟩
      rw [List.forall_mem_cons]
      exact (and_iff_right hfolder).symm

/-- Files are written into the folder that a path leads to, and nothing else changes. -/
theorem LeadsTo.writeFiles (files : List AuxFile) {t : FileTree} {d : Folder} (h : t.LeadsTo path parts d)
    (hd : OnlyFiles d) (hreach : ∀ f ∈ files, Reaches path f.name) :
    ∃ t', writeFiles path t files = (.ok (), t') ∧ t'.LeadsTo path parts (putAll d files) ∧
      OnlyFiles (putAll d files) ∧ SameOutside t t' parts := by
  obtain ⟨result, t', hwrite, hleads, houtside, hiff⟩ := h.writeFiles_upTo files
    (fun f hf => (hreach f hf).isName.isPlain) fun f hf _ => hreach f hf
  obtain rfl := hiff.mpr fun f _ => hd f.name
  rw [unhindered_of_free fun f _ => hd f.name] at hleads
  exact ⟨t', hwrite, hleads, hd.putAll files, houtside⟩

/-- If all files are written, then they are in the folder; so their names can be used, and none is the name of a folder. -/
theorem LeadsTo.of_writeFiles (files : List AuxFile) : ∀ {t t' : FileTree} {d : Folder}, t.LeadsTo path parts d →
    (∀ f ∈ files, IsPlain f.name) → SeedCorpus.writeFiles path t files = (.ok (), t') →
    t'.LeadsTo path parts (putAll d files) ∧ ∀ f ∈ files, Reaches path f.name ∧ isFolderAt d f.name = false := by
  induction files with
  | nil =>
    intro t t' d h _ hok
    cases hok
    exact ⟨h, nofun⟩
  | cons f files ih =>
    intro t t' d h hplain hok
    obtain ⟨hf, hplain⟩ := List.forall_mem_cons.mp hplain
    rw [writeFiles_cons] at hok
    cases hwrite : t.write (join path f.name) f.contents.toUTF8 with
    | error e => rw [hwrite] at hok; cases hok
    | ok t₁ =>
      -- the first file was written, so its name can be used and no folder has it
      have hreach := h.reaches_of_write hf hwrite
      have hfolder : isFolderAt d f.name = false := by
        cases hd : isFolderAt d f.name with
        | false => rfl
        | true =>
          obtain ⟨e, he⟩ := h.write_isFolder hf hd f.contents.toUTF8
          rw [hwrite] at he
          cases he
      have hput : t₁ = t.within parts (d.put f.name (.file f.contents.toUTF8)) :=
        Except.ok.inj (hwrite.symm.trans (h.write_join hreach hfolder _))
      rw [hwrite, hput] at hok
      obtain ⟨hleads, hrest⟩ := ih (h.within (sameFolders_put hfolder f.contents.toUTF8)) hplain hok
      rw [isFolderAt_put hfolder] at hrest
      exact ⟨hleads, List.forall_mem_cons.mpr ⟨⟨hreach, hfolder⟩, hrest⟩⟩

end FileTree

end SeedCorpus
