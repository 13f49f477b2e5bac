/-
  The stand-in tools do what is asked of tools.

  What is known of a pass asks two things of the tools: that they change no file (`SeedFilter.LeavesFiles`), and, where a
  second pass is concerned, that normal forms stay as they are (`QuietFilter.Settles`).  Here this is shown of the tools that
  need no external program.

  1. Rules decide as one reads them: the first rule whose text occurs in the file (`decision_eq_iff`).
  2. All stand-ins leave all files alone (`leavesFiles`).
  3. Each of the canonicalizers takes its own answers for normal (`identity_normal`, `upper_normal`, `empty_normal`,
     `trimLines_normal`).  The one with an argument in it is `trimLines`: trimmed lines hold no line break, so that the text
     falls apart into just these lines again.
  4. Such a canonicalizer settles a filter as soon as normal forms are let through (`settles_of_normal`); `identity` always
     does (`settles_identity`).
-/
import Mathlib
import SeedCorpus.Filter.StandIn
import SeedCorpus.Proofs.Filter.Again
import SeedCorpus.Proofs.Filter.Keeping

namespace SeedCorpus.StandIn

/-! ## Rules -/

/-- A list of bytes occurs in another exactly if it is a piece of it. -/
theorem occursIn_iff {part bytes : List UInt8} : occursIn part bytes = true ↔ part <:+: bytes := by
  induction bytes with
  | nil => rw [occursIn, List.isEmpty_iff, List.infix_nil]
  | cons b rest ih => rw [occursIn, Bool.or_eq_true, List.isPrefixOf_iff_prefix, ih, List.infix_cons_iff]

/-- Whether the text of a rule occurs in bytes. -/
def Applies (rule : String × Decision) (bytes : List UInt8) : Prop := rule.1.toUTF8.toList <:+: bytes

/-- **The first rule that applies decides**, and if none does the last word is taken. -/
theorem decision_eq_iff {table : List (String × Decision)} {otherwise d : Decision} {bytes : List UInt8} :
    decision table otherwise bytes = d ↔
      (∃ front rule back, table = front ++ rule :: back ∧ Applies rule bytes ∧ rule.2 = d ∧
        ∀ earlier ∈ front, ¬ Applies earlier bytes) ∨
      (∀ rule ∈ table, ¬ Applies rule bytes) ∧ otherwise = d := by
  have hfirst : ∀ rule, (table.find? fun rule => occursIn rule.1.toUTF8.toList bytes) = some rule ↔
      Applies rule bytes ∧ ∃ front back, table = front ++ rule :: back ∧ ∀ earlier ∈ front, ¬ Applies earlier bytes := by
    intro rule
    simp only [List.find?_eq_some_iff_append, occursIn_iff, Bool.not_eq_true', Bool.eq_false_iff, ne_eq, Applies]
  have hnone : (table.find? fun rule => occursIn rule.1.toUTF8.toList bytes) = none ↔
      ∀ rule ∈ table, ¬ Applies rule bytes := by
    simp only [List.find?_eq_none, occursIn_iff, Applies]
  constructor
  · intro h
    cases hfind : table.find? fun rule => occursIn rule.1.toUTF8.toList bytes with
    | none =>
      rw [decision, hfind] at h
      exact .inr ⟨hnone.mp hfind, h⟩
    | some rule =>
      rw [decision, hfind] at h
      obtain ⟨happlies, front, back, htable, hearlier⟩ := (hfirst rule).mp hfind
      exact .inl ⟨front, rule, back, htable, happlies, h, hearlier⟩
  · rintro (⟨front, rule, back, htable, happlies, rfl, hearlier⟩ | ⟨h, rfl⟩)
    · rw [decision, (hfirst rule).mpr ⟨happlies, front, back, htable, hearlier⟩]
      rfl
    · rw [decision, hnone.mpr h]
      rfl

/-! ## Files -/

/-- **The stand-ins leave all files alone**, with whatever rules and whichever function on texts. -/
theorem leavesFiles (gates : Gates) (extension : String) (table : List (String × Decision)) (otherwise : Decision)
    (canonical : String → Except ToolError String) :
    SeedFilter.LeavesFiles
      { gates, extension, compiler := rules table otherwise, canonicalizer := .ofText canonical } where
  compiler _ _ := rfl
  canonicalizer _ _ := rfl

/-! ## Normal forms -/

/-- What a canonicalizer answers it takes for normal. -/
def IsNormal (c : Canonicalizer) : Prop := ∀ t text normal, (c t text).1 = .ok normal → (c t normal).1 = .ok normal

theorem identity_normal : IsNormal identity := fun _ _ _ _ => rfl

theorem empty_normal : IsNormal empty := fun _ _ _ h => h

theorem upper_normal : IsNormal upper := by
  intro t text normal h
  obtain rfl := Except.ok.inj h
  show Except.ok _ = Except.ok _
  rw [String.map_map]
  exact congrArg (fun f => Except.ok (text.map f)) (funext fun c => Char.toUpper_toUpper_eq_toUpper c)

/-- Trimming a line twice is trimming it once: what the front has lost does not come back when the end is cut. -/
theorem trimLine_trimLine (line : List Char) : trimLine (trimLine line) = trimLine line := by
  have hfront : ∀ l : List Char, trimLine l = (l.dropWhile (· = ' ')).rdropWhile (· = ' ') := fun _ => rfl
  have hsame : (trimLine line).dropWhile (· = ' ') = trimLine line := by
    rw [List.dropWhile_eq_self_iff]
    intro hl
    have hpre : trimLine line <+: line.dropWhile (· = ' ') := List.rdropWhile_prefix _ _
    have hnonempty : 0 < (line.dropWhile (· = ' ')).length := Nat.lt_of_lt_of_le hl hpre.length_le
    rw [hpre.getElem hl]
    exact List.dropWhile_get_zero_not _ _ hnonempty
  rw [hfront (trimLine line), hsame, hfront line]
  exact List.rdropWhile_idempotent _ _

/-- Trimming takes characters away and adds none. -/
theorem mem_of_mem_trimLine {c : Char} {line : List Char} (h : c ∈ trimLine line) : c ∈ line :=
  (List.dropWhile_suffix _).mem ((List.rdropWhile_prefix _ _).mem h)

/-- A piece between separators holds no separator. -/
theorem notMem_of_mem_splitOn {c : Char} {s piece : List Char} (h : piece ∈ s.splitOn c) : c ∉ piece := by
  induction s generalizing piece with
  | nil =>
    rw [List.splitOn_nil] at h
    obtain rfl := List.mem_singleton.mp h
    exact List.not_mem_nil
  | cons x s ih =>
    rw [List.splitOn_cons_eq_if_modifyHead] at h
    split at h
    · obtain rfl | h := List.mem_cons.mp h
      · exact List.not_mem_nil
      · exact ih h
    · -- the character goes in front of the first piece, which has no separator by itself
      rename_i hx
      obtain ⟨first, more, hs⟩ := List.exists_cons_of_ne_nil (List.splitOn_ne_nil c s)
      rw [hs, List.modifyHead_cons] at h
      rw [hs] at ih
      obtain rfl | h := List.mem_cons.mp h
      · rintro (_ | ⟨_, hmem⟩)
        · exact hx (beq_self_eq_true c)
        · exact ih List.mem_cons_self hmem
      · exact ih (List.mem_cons_of_mem _ h)

/-- **Trimming a text twice is trimming it once.**  The trimmed lines hold no line break, so that the trimmed text falls apart
into them. -/
theorem trimText_trimText (text : String) : trimText (trimText text) = trimText text := by
  have hlines : ((trimText text).toList.splitOn '\n') = (text.toList.splitOn '\n').map trimLine := by
    rw [trimText, String.toList_ofList]
    refine List.splitOn_intercalate '\n' (fun l hl hmem => ?_) ?_
    · obtain ⟨line, hline, rfl⟩ := List.mem_map.mp hl
      exact notMem_of_mem_splitOn hline (mem_of_mem_trimLine hmem)
    · exact fun h => List.splitOn_ne_nil _ _ (List.map_eq_nil_iff.mp h)
  conv_lhs => rw [trimText, hlines, List.map_map]
  have htwice : trimLine ∘ trimLine = trimLine := funext trimLine_trimLine
  rw [htwice, trimText]

theorem trimLines_normal : IsNormal trimLines := by
  intro t text normal h
  obtain rfl := Except.ok.inj h
  exact congrArg Except.ok (trimText_trimText text)

/-! ## Filters that settle -/

variable {gates : Gates} {extension : String} {table : List (String × Decision)} {otherwise : Decision}
  {canonical : String → Except ToolError String}

/-- The filter with rules for a compiler and a function on texts for a canonicalizer, as one whose tools change no file. -/
def quiet (gates : Gates) (extension : String) (table : List (String × Decision)) (otherwise : Decision)
    (canonical : String → Except ToolError String) : QuietFilter where
  gates
  extension
  judge _ content := (decision table otherwise content.toList).answer
  canonical

/-- A text that the gates let through and that the rules accept. -/
def LetsThrough (gates : Gates) (table : List (String × Decision)) (otherwise : Decision) (text : String) : Prop :=
  gates.check text = .ok () ∧ (decision table otherwise text.toUTF8.toList).answer = .ok .accepted

/-- **A canonicalizer that takes its own answers for normal settles a filter**, if it answers wherever it is asked, and with
texts that are let through. -/
theorem settles_of_normal (hnormal : IsNormal (.ofText canonical))
    (hanswers : ∀ text, LetsThrough gates table otherwise text →
      ∃ normal, canonical text = .ok normal ∧ LetsThrough gates table otherwise normal) :
    (quiet gates extension table otherwise canonical).Settles where
  content _ _ _ := rfl
  stable p text hg hj := by
    obtain ⟨normal, hcanonical, hg', hj'⟩ := hanswers text ⟨hg, hj⟩
    exact ⟨normal, hcanonical, hg', hj', hnormal (.ofFolder []) text normal hcanonical⟩

/-- Texts that stay as they are settle every filter with rules. -/
theorem settles_identity : (quiet gates extension table otherwise .ok).Settles :=
  settles_of_normal identity_normal fun text h => ⟨text, rfl, h⟩

/-- A filter settles whose canonicalizer trims lines, if what is let through still is when its lines are trimmed. -/
theorem settles_trimLines (htrimmed : ∀ text, LetsThrough gates table otherwise text →
    LetsThrough gates table otherwise (trimText text)) :
    (quiet gates extension table otherwise fun text => .ok (trimText text)).Settles :=
  settles_of_normal trimLines_normal fun text h => ⟨trimText text, rfl, htrimmed text h⟩

/-- With a canonicalizer that breaks down no file is ever accepted. -/
theorem broken_ne_accepted {f : SeedFilter} (hf : f.canonicalizer = broken) (t : FileTree) (path p : String) (length : Nat) :
    (f.processFile t path).result ≠ .ok (.accepted p length) := by
  have hjudge : ∀ t' newPath text, (f.judge t' newPath text).1 ≠ .ok (.accepted p length) := by
    intro t' newPath text hok
    unfold SeedFilter.judge at hok
    split at hok
    · cases hok
    · exact SeedFilter.discard_ne_accepted _ _ _ _ _ hok
    · exact SeedFilter.discard_ne_accepted _ _ _ _ _ hok
    · rw [SeedFilter.canonicalize, hf] at hok
      cases hok
  intro hok
  unfold SeedFilter.processFile at hok
  split at hok
  · cases hok
  · split at hok
    · exact SeedFilter.discard_ne_accepted _ _ _ _ _ hok
    · split at hok
      · exact SeedFilter.discard_ne_accepted _ _ _ _ _ hok
      · split at hok
        · cases hok
        · exact hjudge _ _ _ hok

end SeedCorpus.StandIn
