/-
  What the gate for nesting lets through.

  The gate goes through a text once and takes every brace that it can use.  Nothing is lost by that: if any opening braces
  have closing ones behind them, then the first ones have.  So the gate finds out whether the braces occur in the text in
  their order, with anything between them (`hasNesting_iff`).

  Where they occur can be told by positions that increase (`Nested`).  That they occur can be told by a regular expression
  (`nestingPattern`): to seek a character is to skip any text and then to read the character, and to seek one in front of
  characters in their order is to hold one more of them (`seeking_mul_holding`).  The three agree (`checkNesting_iff`).
-/
import Mathlib.Computability.Language
import Mathlib.Data.List.NodupEquivFin
import SeedCorpus.Filter.Gates

namespace SeedCorpus

open scoped Computability

/-! ## One pass

The induction is on the text, with the numbers of braces left open, as a character may use one up. -/

/-- Opening braces, and closing ones behind them. -/
def braces (opens closes : Nat) : List Char := List.replicate opens '\x7b' ++ List.replicate closes '\x7d'

/-- The gate looks for braces in their order. -/
theorem hasNesting_iff {opens closes : Nat} {text : List Char} :
    hasNesting opens closes text ↔ (braces opens closes).Sublist text := by
  unfold braces
  induction text generalizing opens closes with
  | nil => simp [hasNesting, List.sublist_nil]
  | cons c rest ih =>
    -- the gate takes the first brace that it can use, and so does a sublist
    match opens, closes with
    | 0, 0 => simp [hasNesting]
    | 0, closes + 1 =>
      rw [hasNesting, ih]
      by_cases hc : c = '\x7d'
      · subst hc
        simp [List.replicate_succ]
      · simp [hc, List.replicate_succ, List.sublist_cons_iff, Ne.symm hc]
    | opens + 1, closes =>
      rw [hasNesting, ih]
      by_cases hc : c = '\x7b'
      · subst hc
        simp [List.replicate_succ]
      · simp [hc, List.replicate_succ, List.sublist_cons_iff, Ne.symm hc]

/-- What passes with some characters left out passes with them. -/
theorem hasNesting_mono {opens closes : Nat} {text longer : List Char} (h : hasNesting opens closes text)
    (hsub : text.Sublist longer) : hasNesting opens closes longer :=
  hasNesting_iff.mpr ((hasNesting_iff.mp h).trans hsub)

/-! ## Positions

A sublist is an embedding of positions.  For braces the positions come in two runs, and these are told apart by the number of
the opening ones. -/

/-- Characters occur in a text in their order just when they stand at positions that increase. -/
theorem sublist_iff_positions {w text : List Char} :
    w.Sublist text ↔ ∃ place : Fin w.length → Nat, StrictMono place ∧ ∀ i, text[place i]? = some w[i] := by
  rw [List.sublist_iff_exists_fin_orderEmbedding_get_eq]
  constructor
  · rintro ⟨f, hf⟩
    refine ⟨fun i => (f i).val, fun i j hij => f.strictMono hij, fun i => ?_⟩
    have hi : w[i] = text[(f i).val] := hf i
    rw [hi]
    exact List.getElem?_eq_getElem (f i).isLt
  · -- every position lies within the text, as a character stands there
    rintro ⟨place, hmono, hplace⟩
    have hlt : ∀ i, place i < text.length := fun i => (List.getElem?_eq_some_iff.mp (hplace i)).1
    refine ⟨OrderEmbedding.ofStrictMono (fun i => ⟨place i, hlt i⟩) fun i j hij => hmono hij, fun i => ?_⟩
    exact (List.getElem?_eq_some_iff.mp (hplace i)).2.symm

/-- Positions of opening braces in a text, and of closing ones that stand behind all of them. -/
structure Nested {m n : Nat} (text : List Char) (opens : Fin m → Nat) (closes : Fin n → Nat) : Prop where
  /-- The positions of the opening braces increase. -/
  opensMono : StrictMono opens
  /-- Those of the closing braces do. -/
  closesMono : StrictMono closes
  /-- All that open stand in front of all that close. -/
  before : ∀ i j, opens i < closes j
  /-- There is an opening brace at each of the first positions. -/
  opening : ∀ i, text[opens i]? = some '\x7b'
  /-- There is a closing brace at each of the others. -/
  closing : ∀ j, text[closes j]? = some '\x7d'

variable {m n : Nat} {text : List Char}

/-- As many characters as there are braces of both kinds. -/
theorem length_braces (m n : Nat) : (braces m n).length = m + n := by simp [braces]

theorem getElem_braces_left {i : Nat} (h : i < m) (hi : i < (braces m n).length) : (braces m n)[i] = '\x7b' := by
  have hleft : i < (List.replicate m '\x7b').length := by rwa [List.length_replicate]
  simp only [braces, List.getElem_append_left hleft, List.getElem_replicate]

theorem getElem_braces_right {i : Nat} (h : m ≤ i) (hi : i < (braces m n).length) : (braces m n)[i] = '\x7d' := by
  have hright : (List.replicate m '\x7b').length ≤ i := by rwa [List.length_replicate]
  simp only [braces, List.getElem_append_right hright, List.getElem_replicate]

/-- Braces occur in their order just when there are positions of theirs. -/
theorem sublist_iff_nested :
    (braces m n).Sublist text ↔ ∃ (opens : Fin m → Nat) (closes : Fin n → Nat), Nested text opens closes := by
  have hlength := length_braces m n
  rw [sublist_iff_positions]
  constructor
  · rintro ⟨place, hmono, hplace⟩
    refine ⟨fun i => place ⟨i, by omega⟩, fun j => place ⟨m + j, by omega⟩, ?_, ?_, ?_, ?_, ?_⟩
    · exact fun i j hij => hmono hij
    · exact fun i j hij => hmono (Nat.add_lt_add_left hij m)
    · exact fun i j => hmono (Nat.lt_of_lt_of_le i.isLt (Nat.le_add_right m j))
    · exact fun i => (hplace _).trans (congrArg some (getElem_braces_left i.isLt _))
    · exact fun j => (hplace _).trans (congrArg some (getElem_braces_right (Nat.le_add_right m j) _))
  · rintro ⟨opens, closes, h⟩
    -- the two runs are put one behind the other
    refine ⟨fun k => if hk : k.val < m then opens ⟨k, hk⟩ else closes ⟨k - m, by omega⟩, fun k l hkl => ?_, fun k => ?_⟩
    · have hkl' : k.val < l.val := hkl
      -- both positions in the first run, both in the second, or one in each
      by_cases hl : l.val < m
      · have hk : k.val < m := by omega
        simp only [dif_pos hk, dif_pos hl]
        exact h.opensMono hkl'
      · by_cases hk : k.val < m
        · simp only [dif_pos hk, dif_neg hl]
          exact h.before _ _
        · simp only [dif_neg hk, dif_neg hl]
          refine h.closesMono (show k.val - m < l.val - m from ?_)
          omega
    · by_cases hk : k.val < m
      · simp only [dif_pos hk]
        exact (h.opening _).trans (congrArg some (getElem_braces_left hk _).symm)
      · simp only [dif_neg hk]
        exact (h.closing _).trans (congrArg some (getElem_braces_right (Nat.le_of_not_lt hk) _).symm)

/-! ## Regular expressions

The pattern is a product, and is taken apart from its end: what matches any text holds nothing in particular, and each factor
in front of it adds one character to what is held. -/

/-- The texts of one character, whichever it is: the dot, for which a newline is a character like others. -/
def anyChar : Language Char := {w | ∃ c, w = [c]}

/-- The texts that match `.*` and then a certain character. -/
def seeking (c : Char) : Language Char := anyChar∗ * {[c]}

/-- The texts that match `.*` and an opening brace `depth` times, then `.*` and a closing one as often, and then `.*`. -/
def nestingPattern (depth : Nat) : Language Char := seeking '\x7b' ^ depth * seeking '\x7d' ^ depth * anyChar∗

/-- The texts that hold some characters in their order. -/
def holding (w : List Char) : Language Char := {text | w.Sublist text}

/-- Every text is one of characters. -/
theorem kstar_anyChar : anyChar∗ = holding [] := by
  ext text
  refine ⟨fun _ => List.nil_sublist text, fun _ => ?_⟩
  refine Language.mem_kstar.mpr ⟨text.map fun c => [c], ?_, fun w hw => ?_⟩
  · rw [← List.flatMap_def, List.flatMap_singleton']
  · obtain ⟨c, -, rfl⟩ := List.mem_map.mp hw
    exact ⟨c, rfl⟩

/-- To seek a character in front of characters in their order is to hold one more of them. -/
theorem seeking_mul_holding (c : Char) (w : List Char) : seeking c * holding w = holding (c :: w) := by
  ext text
  rw [seeking, kstar_anyChar, mul_assoc, Language.mem_mul]
  constructor
  · rintro ⟨front, -, back, hback, rfl⟩
    obtain ⟨first, hfirst, rest, hrest, rfl⟩ := Language.mem_mul.mp hback
    obtain rfl : first = [c] := hfirst
    exact (List.Sublist.cons_cons c hrest).trans (List.sublist_append_right front _)
  · -- where the first character is found, the text is cut in two
    intro h
    obtain ⟨front, back, rfl, hc, hw⟩ := List.cons_sublist_iff.mp h
    obtain ⟨before, behind, rfl⟩ := List.append_of_mem hc
    refine ⟨before, List.nil_sublist before, c :: (behind ++ back), ?_, by simp⟩
    exact Language.mem_mul.mpr ⟨[c], rfl, behind ++ back, hw.trans (List.sublist_append_right behind back), rfl⟩

/-- To seek a character several times is to hold as many of it. -/
theorem seeking_pow_mul_holding (c : Char) (n : Nat) (w : List Char) :
    seeking c ^ n * holding w = holding (List.replicate n c ++ w) := by
  induction n with
  | zero => rw [pow_zero, one_mul, List.replicate_zero, List.nil_append]
  | succ n ih => rw [pow_succ', mul_assoc, ih, seeking_mul_holding, List.replicate_succ, List.cons_append]

/-- A text matches the expression if and only if it holds the braces in their order. -/
theorem mem_nestingPattern {depth : Nat} : text ∈ nestingPattern depth ↔ (braces depth depth).Sublist text := by
  have hpattern : nestingPattern depth = holding (braces depth depth) := by
    rw [nestingPattern, kstar_anyChar, mul_assoc, seeking_pow_mul_holding, seeking_pow_mul_holding, List.append_nil,
      braces]
  rw [hpattern]
  exact Iff.rfl

/-! ## The gate

All three ways to say it come down to a sublist. -/

/-- **The gate lets a text through just when its braces are nested deeply enough**, that is, when there are increasing
positions of as many opening braces as the depth says and of as many closing ones behind all of them, or, what is the same,
when the text matches the regular expression.  It refuses any other text as not nested. -/
theorem checkNesting_iff (text : String) (depth : Nat) :
    (checkNesting text depth = .ok () ↔ ∃ opens closes : Fin depth → Nat, Nested text.toList opens closes) ∧
    (checkNesting text depth = .ok () ↔ text.toList ∈ nestingPattern depth) ∧
    (checkNesting text depth = .error .shallowNesting ↔
      ¬ ∃ opens closes : Fin depth → Nat, Nested text.toList opens closes) := by
  rw [mem_nestingPattern, ← sublist_iff_nested, ← hasNesting_iff, checkNesting]
  cases hasNesting depth depth text.toList <;> simp

/-- The braces need not belong together. -/
example : checkNesting "\x7b\x7d \x7b\x7d \x7b \x7d \x7d \x7d" 3 = .ok () := by decide

/-- Closing braces do not count in front of the last opening one. -/
example : checkNesting "\x7b\x7d \x7d \x7d \x7b \x7b" 3 = .error .shallowNesting := by decide

end SeedCorpus
