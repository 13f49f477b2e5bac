/-
  Where a path with one more name leads.

  A path is taken apart at its slashes (`Path.split`), and the pieces are followed one by one (`Folder.walk`).  Putting a
  name behind a path adds one piece at the end (`names_join`), or takes the place of the empty piece that a slash at the
  end had left; either way the walk ends one name further (`walk_join`).  This holds for plain pieces (`Path.IsPlain`), and so
  for the names that a folder can hold (`Path.IsName`): a dot, two dots or a name with a slash in it would lead elsewhere.
-/
import SeedCorpus.Folder.Tree

namespace SeedCorpus

namespace Path

/-! ## Names

What stands between two slashes need not name an entry.  `IsPlain` asks for as much as the walk needs, `IsName` for as much
as the file system does. -/

/-- A name that an entry of a folder can have. -/
structure IsName (name : String) : Prop where
  /-- It is not empty. -/
  nonempty : name ≠ ""
  /-- It is not the dot, which stands for the folder itself. -/
  notDot : name ≠ "."
  /-- It is not the two dots, which stand for the folder above. -/
  notDots : name ≠ ".."
  /-- It holds no slash. -/
  noSlash : '/' ∉ name.toList
  /-- It holds no character that ends names. -/
  noNul : Char.ofNat 0 ∉ name.toList
  /-- It is not too long. -/
  short : name.utf8ByteSize ≤ maxNameBytes

/-- A piece of a path that stands for an entry of that name, however long it is. -/
structure IsPlain (name : String) : Prop where
  /-- It is not empty. -/
  nonempty : name ≠ ""
  /-- It is not the dot. -/
  notDot : name ≠ "."
  /-- It is not the two dots. -/
  notDots : name ≠ ".."
  /-- It holds no slash. -/
  noSlash : '/' ∉ name.toList

/-- A name that an entry can have is a plain piece. -/
theorem IsName.isPlain {name : String} (h : IsName name) : IsPlain name := ⟨h.nonempty, h.notDot, h.notDots, h.noSlash⟩

/-! ## Taking paths apart

The pieces are made from the end of the text: each character is put in front of the first piece, or a slash begins a new one. -/

/-- There is always a first piece, though it may be empty. -/
theorem split_ne_nil (s : List Char) : split s ≠ [] := by
  cases s with
  | nil => exact List.cons_ne_nil _ _
  | cons c rest =>
    show consChar c (split rest) ≠ []
    unfold consChar
    split
    · split <;> exact List.cons_ne_nil _ _
    · exact List.cons_ne_nil _ _

/-- A slash begins a new piece. -/
theorem split_slash (s : List Char) : split ('/' :: s) = [] :: split s := by
  show consChar '/' (split s) = [] :: split s
  obtain ⟨first, rest, h⟩ := List.exists_cons_of_ne_nil (split_ne_nil s)
  rw [h]
  rfl

/-- Taking apart a text with a slash in it takes apart what stands on both sides. -/
theorem split_append_slash (s : List Char) (below : List Char) : split (s ++ '/' :: below) = split s ++ split below := by
  induction s with
  | nil => exact split_slash below
  | cons c s ih =>
    show consChar c (split (s ++ '/' :: below)) = consChar c (split s) ++ split below
    obtain ⟨first, rest, h⟩ := List.exists_cons_of_ne_nil (split_ne_nil s)
    rw [ih, h]
    unfold consChar
    -- a slash begins a piece on the left, and any other character goes to its first piece
    by_cases hc : c = '/'
    · simp only [List.cons_append, if_pos hc]
    · simp only [List.cons_append, if_neg hc]

/-- A text without slashes is one piece. -/
theorem split_of_no_slash {s : List Char} (h : '/' ∉ s) : split s = [s] := by
  induction s with
  | nil => rfl
  | cons c s ih =>
    have hc : c ≠ '/' := fun e => h (e ▸ List.mem_cons_self)
    show consChar c (split s) = [c :: s]
    rw [ih fun hs => h (List.mem_cons_of_mem c hs)]
    simp only [consChar, if_neg hc]

/-! ## Putting a name behind a path

A slash is put in between unless there is one already. -/

/-- A text without slashes does not begin with one. -/
theorem isAbsolute_eq_false {name : String} (h : '/' ∉ name.toList) : isAbsolute name = false := by
  unfold isAbsolute
  cases hl : name.toList with
  | nil => rfl
  | cons c rest =>
    have hc : c ≠ '/' := fun e => h (by rw [hl, e]; exact List.mem_cons_self)
    simp [hc]

/-- A path to an entry of a folder holds the characters of the path to the folder, in front, and those of the name. -/
theorem toList_join {path name : String} (hp : path ≠ "") (hn : '/' ∉ name.toList) :
    ∃ between, (join path name).toList = path.toList ++ between ++ name.toList ∧
      (between = [] ∧ path.toList.getLast? = some '/' ∨ between = ['/']) := by
  unfold join
  rw [isAbsolute_eq_false hn, if_neg Bool.false_ne_true]
  by_cases he : path.toList.getLast? = some '/'
  · refine ⟨[], ?_, Or.inl ⟨rfl, he⟩⟩
    simp [he]
  · refine ⟨['/'], ?_, Or.inr rfl⟩
    simp [he, hp]

/-- Whether a path is absolute is told by its front. -/
theorem isAbsolute_join {path name : String} (hp : path ≠ "") (hn : '/' ∉ name.toList) :
    isAbsolute (join path name) = isAbsolute path := by
  obtain ⟨between, h, -⟩ := toList_join hp hn
  unfold isAbsolute
  rw [h]
  cases hl : path.toList with
  | nil => exact absurd (String.toList_eq_nil_iff.mp hl) hp
  | cons c rest => rfl

/-- The pieces of a path with a name behind it: those of the path and the name.  The empty piece behind a slash at the
end of the path is the only one that can be lost. -/
theorem names_join {path name : String} (hp : path ≠ "") (hn : '/' ∉ name.toList) :
    ∃ before, names (join path name) = before ++ [name] ∧ (names path = before ∨ names path = before ++ [""]) := by
  obtain ⟨between, hj, ⟨rfl, he⟩ | rfl⟩ := toList_join hp hn
  · -- the path ends with a slash, so that its last piece is empty; the name takes its place
    obtain ⟨front, hf⟩ := List.getLast?_eq_some_iff.mp he
    refine ⟨(split front).map String.ofList, ?_, Or.inr ?_⟩
    · rw [names, hj, hf, List.append_nil, List.append_assoc, List.singleton_append, split_append_slash,
        split_of_no_slash hn, List.map_append, List.map_cons, List.map_nil, String.ofList_toList]
    · rw [names, hf, split_append_slash, List.map_append]
      rfl
  · refine ⟨names path, ?_, Or.inl rfl⟩
    rw [names, hj, List.append_assoc, List.singleton_append, split_append_slash, split_of_no_slash hn,
      List.map_append, List.map_cons, List.map_nil, String.ofList_toList]
    rfl

end Path

/-! ## Following paths

Pieces are followed from the left, with the names that they have come down to so far.  The dots are the only ones for which
the folders matter that there are. -/

namespace Folder

open SeedCorpus.Path

/-- An empty piece at the end of a walk leads nowhere else. -/
theorem walk_append_empty (d : Folder) (pieces : List String) : ∀ above,
    walk d above (pieces ++ [""]) = walk d above pieces := by
  induction pieces with
  | nil => intro above; rfl
  | cons piece pieces ih =>
    intro above
    simp only [List.cons_append, walk, ih]

/-- A walk with a name at its end leads one name further. -/
theorem walk_append_name (d : Folder) {name : String} (hn : IsPlain name) (pieces : List String) : ∀ above parts,
    walk d above pieces = .ok parts → walk d above (pieces ++ [name]) = .ok (parts ++ [name]) := by
  induction pieces with
  | nil =>
    intro above parts h
    cases h
    simp only [List.nil_append, walk, if_neg hn.nonempty, if_neg (not_or.mpr ⟨hn.notDot, hn.notDots⟩)]
  | cons piece pieces ih =>
    intro above parts h
    simp only [List.cons_append, walk] at h ⊢
    -- an empty piece, the dots, or a name
    split
    · rename_i he; rw [if_pos he] at h; exact ih _ _ h
    · rename_i he
      rw [if_neg he] at h
      split
      · rename_i hd
        rw [if_pos hd] at h
        cases hf : folderAt d above with
        | error e => rw [hf] at h; cases h
        | ok sub => rw [hf] at h; exact ih _ _ h
      · rename_i hd; rw [if_neg hd] at h; exact ih _ _ h

/-- A path with a name behind it leads one name further. -/
theorem walk_join (d : Folder) {path name : String} (hp : path ≠ "") (hn : IsPlain name) {above parts : List String}
    (h : walk d above (Path.names path) = .ok parts) :
    walk d above (Path.names (join path name)) = .ok (parts ++ [name]) := by
  obtain ⟨before, hj, hb | hb⟩ := names_join hp hn.noSlash
  · rw [hj]
    exact walk_append_name d hn before above parts (hb ▸ h)
  · rw [hj]
    rw [hb, walk_append_empty] at h
    exact walk_append_name d hn before above parts h

/-- A walk depends on nothing but which names lead to folders. -/
theorem walk_mono {d d' : Folder} (hd : ∀ q, (folderAt d q).isOk → (folderAt d' q).isOk) (pieces : List String) :
    ∀ above parts, walk d above pieces = .ok parts → walk d' above pieces = .ok parts := by
  induction pieces with
  | nil => intro above parts h; exact h
  | cons piece pieces ih =>
    intro above parts h
    simp only [walk] at h ⊢
    split
    · rename_i he; rw [if_pos he] at h; exact ih _ _ h
    · rename_i he
      rw [if_neg he] at h
      split
      · rename_i hp
        rw [if_pos hp] at h
        have hok := hd above
        cases hf : folderAt d above with
        | error e => rw [hf] at h; cases h
        | ok sub =>
          rw [hf] at h hok
          -- where there was a folder there still is one
          cases hf' : folderAt d' above with
          | error e => rw [hf'] at hok; exact absurd (hok rfl) Bool.false_ne_true
          | ok sub' => exact ih _ _ h
      · rename_i hp; rw [if_neg hp] at h; exact ih _ _ h

end Folder

end SeedCorpus
