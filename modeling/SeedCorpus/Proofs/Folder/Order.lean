/-
  The order in which the files of a folder are listed.

  Names are listed in the order of their bytes.  Texts are compared by their characters, and UTF-8 keeps that order: of two
  characters the first in order has the smaller bytes (`utf8EncodeChar_lt`), so the first difference between two
  texts decides both ways (`lt_bytes`).

  Names in a folder are distinct (`Folder.Distinct`), so the list of its files holds each of them once (`fileNames_sorted`,
  `mem_fileNames`).
-/
import SeedCorpus.Proofs.Folder.Lookup
import SeedCorpus.Proofs.Text.Bytes

namespace SeedCorpus

/-! ## Characters and their bytes -/

/-- The digits of numbers to base 64, from the highest on, are in the order of the numbers. -/
theorem digits_lt {v w : Nat} (h : v < w) (hw : w < 0x110000) :
    v / 262144 % 8 < w / 262144 % 8 ∨ v / 262144 % 8 = w / 262144 % 8 ∧
      (v / 4096 % 64 < w / 4096 % 64 ∨ v / 4096 % 64 = w / 4096 % 64 ∧
        (v / 64 % 64 < w / 64 % 64 ∨ v / 64 % 64 = w / 64 % 64 ∧ v % 64 < w % 64)) := by
  -- the first digit in which the two differ is the greater one of the greater number
  rcases Nat.lt_or_eq_of_le (Nat.div_le_div_right (c := 262144) (Nat.le_of_lt h)) with h18 | h18
  · omega
  · rcases Nat.lt_or_eq_of_le (Nat.div_le_div_right (c := 4096) (Nat.le_of_lt h)) with h12 | h12
    · omega
    · rcases Nat.lt_or_eq_of_le (Nat.div_le_div_right (c := 64) (Nat.le_of_lt h)) with h6 | h6
      · omega
      · omega

/-- Of two characters the first in order has the smaller bytes, whatever follows. -/
theorem utf8EncodeChar_lt {c d : Char} (h : c < d) (after after' : List UInt8) :
    String.utf8EncodeChar c ++ after < String.utf8EncodeChar d ++ after' := by
  have hv : c.val.toNat < d.val.toNat := UInt32.lt_iff_toNat_lt.mp h
  have hd : d.val.toNat < 0x110000 := by
    rcases d.valid with hvalid | hvalid <;> omega
  have hdigits := digits_lt hv hd
  have hlead : ∀ n, (n % 8 + 240) % 2 ^ 8 = n % 8 + 240 := by omega
  have hnext : ∀ n, (n % 64 + 128) % 2 ^ 8 = n % 64 + 128 := by omega
  unfold String.utf8EncodeChar
  dsimp only
  generalize c.val.toNat = v at *
  generalize d.val.toNat = w at *
  -- the first byte tells the lengths apart
  repeat' split
  all_goals
    simp only [List.cons_append, List.nil_append, List.cons_lt_cons_iff, UInt8.lt_iff_toNat_lt, ← UInt8.toNat_inj,
      UInt8.toNat_ofNat', hlead, hnext]
    omega

/-- Texts are in the order of their bytes. -/
theorem lt_bytes {s t : String} (h : s < t) : bytesOf s < bytesOf t := by
  rw [bytesOf_eq_flatMap, bytesOf_eq_flatMap]
  rw [String.lt_iff] at h
  generalize s.toList = s at h
  generalize t.toList = t at h
  -- one text ends, or two characters differ, or the first characters are the same
  induction h with
  | nil =>
    rename_i c rest
    obtain ⟨b, more, hb⟩ := List.exists_cons_of_ne_nil (String.utf8EncodeChar_ne_nil (c := c))
    rw [List.flatMap_nil, List.flatMap_cons, hb]
    exact List.nil_lt_cons _ _
  | rel hc =>
    rw [List.flatMap_cons, List.flatMap_cons]
    exact utf8EncodeChar_lt hc _ _
  | cons _ ih =>
    rw [List.flatMap_cons, List.flatMap_cons]
    exact List.append_left_lt ih

/-- A text with more behind it comes later. -/
theorem lt_append {s t : String} (h : t ≠ "") : s < s ++ t := by
  rw [String.lt_iff, String.toList_append]
  obtain ⟨c, rest, hc⟩ := List.exists_cons_of_ne_nil fun hl => h (String.toList_eq_nil_iff.mp hl)
  rw [hc]
  have hlt : s.toList ++ [] < s.toList ++ c :: rest := List.append_left_lt (List.nil_lt_cons _ _)
  rwa [List.append_nil] at hlt

namespace Folder

/-! ## Names in order -/

/-- The names in a folder are distinct. -/
def Distinct (d : Folder) : Prop := (d.map (·.1)).Nodup

variable {d : Folder} {name : String} {entry : Entry}

/-- What a folder holds under a name is what the name stands for. -/
theorem Distinct.get?_eq_some (h : d.Distinct) : get? d name = some entry ↔ (name, entry) ∈ d := by
  unfold Distinct at h
  induction d with
  | nil => simp [get?]
  | cons e d ih =>
    obtain ⟨n, x⟩ := e
    rw [List.map_cons, List.nodup_cons] at h
    by_cases hn : name = n
    · subst hn
      rw [get?_cons_self, List.mem_cons]
      refine ⟨fun hx => Or.inl (by rw [Option.some.inj hx]), fun hm => ?_⟩
      rcases hm with hx | hm
      · rw [(Prod.mk.inj hx).2]
      · exact absurd (List.mem_map.mpr ⟨_, hm, rfl⟩) h.1
    · rw [get?_cons_ne _ _ hn, List.mem_cons, ih h.2]
      refine ⟨Or.inr, fun hm => ?_⟩
      rcases hm with hx | hm
      · exact absurd (Prod.mk.inj hx).1 hn
      · exact hm

/-- The files of a folder are listed. -/
theorem Distinct.mem_fileNames (h : d.Distinct) : name ∈ fileNames d ↔ ∃ bytes, get? d name = some (.file bytes) := by
  rw [fileNames, names, List.mem_mergeSort, List.mem_map]
  constructor
  · rintro ⟨⟨n, x⟩, hm, rfl⟩
    obtain ⟨hm, hx⟩ := List.mem_filter.mp hm
    cases x with
    | file bytes => exact ⟨bytes, h.get?_eq_some.mpr hm⟩
    | folder sub => cases hx
  · rintro ⟨bytes, hg⟩
    exact ⟨(name, .file bytes), List.mem_filter.mpr ⟨h.get?_eq_some.mp hg, rfl⟩, rfl⟩

/-- The files of a folder are listed once each, in the order of their names. -/
theorem Distinct.fileNames_sorted (h : d.Distinct) : (fileNames d).Pairwise (· < ·) := by
  have hnodup : (fileNames d).Nodup := by
    refine (List.mergeSort_perm _ _).nodup_iff.mpr ?_
    exact List.Nodup.sublist (List.filter_sublist.map _) h
  -- sorted names are in order, and as no two are the same, strictly so
  have hle : (fileNames d).Pairwise fun a b => decide (a ≤ b) := by
    refine List.pairwise_mergeSort ?_ ?_ _
    · intro a b c hab hbc
      exact decide_eq_true (String.le_trans (of_decide_eq_true hab) (of_decide_eq_true hbc))
    · intro a b
      rcases String.le_total a b with hab | hba
      · simp [hab]
      · simp [hba]
  refine (hle.and hnodup).imp fun {a b} hab => ?_
  exact String.not_le.mp fun hba => hab.2 (String.le_antisymm (of_decide_eq_true hab.1) hba)

end Folder

end SeedCorpus
