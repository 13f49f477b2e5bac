/-
  Words.

  A text that is put together from words is read again by cutting it where a word ends.  There is one place only to cut it
  (`cut_unique`), so what is known of the pieces comes back from the whole.

  The words of a program are names, numbers and the spellings of types.  A name of C (`IsCName`) is none of the words with
  which statements and declarations begin, and no number begins like a name (`toString_int_start`).
-/
import SeedCorpus.Proofs.Rendering.Braces

namespace SeedCorpus

/-! ## Cutting

`List.takeWhile` finds the place where to cut, so both pieces are determined by the whole. -/

section Cutting

variable {α : Type} {p : α → Bool} {a b s t : List α}

/-- What stands in front of the first element that fails is what is taken from the front. -/
theorem takeWhile_append_of_stop (ha : ∀ x ∈ a, p x = true) (hs : ∀ x, s.head? = some x → p x = false) :
    (a ++ s).takeWhile p = a := by
  have hstop : s.takeWhile p = [] := by
    cases s with
    | nil => rfl
    | cons x rest => exact List.takeWhile_cons_of_neg (by simp [hs x rfl])
  rw [List.takeWhile_append_of_pos ha, hstop, List.append_nil]

/-- There is one place only where something ceases to hold. -/
theorem cut_unique (ha : ∀ x ∈ a, p x = true) (hb : ∀ x ∈ b, p x = true) (hs : ∀ x, s.head? = some x → p x = false)
    (ht : ∀ x, t.head? = some x → p x = false) (h : a ++ s = b ++ t) : a = b ∧ s = t := by
  have hfront : a = b := by
    rw [← takeWhile_append_of_stop ha hs, h, takeWhile_append_of_stop hb ht]
  subst hfront
  exact ⟨rfl, List.append_cancel_left h⟩

/-- What is taken from the front ends at an element that fails, wherever it stands. -/
theorem takeWhile_append_cons {x : α} (hx : p x = false) (a rest : List α) :
    (a ++ x :: rest).takeWhile p = a.takeWhile p := by
  induction a with
  | nil => exact List.takeWhile_cons_of_neg (by simp [hx])
  | cons y a ih => rw [List.cons_append, List.takeWhile_cons, List.takeWhile_cons, ih]

end Cutting

/-! ## Words

Names and numbers are words, the sign of a negative number included.  An expression stops in front of a text that neither
goes on with a word nor opens a bracket, for a bracket would make a name a call or an element. -/

/-- Whether a character can stand in a name or a number. -/
def isWordChar (c : Char) : Bool := c.isAlphanum || c = '_' || c = '-'

/-- A text holds nothing that cannot stand in a name or a number. -/
def IsWord (s : List Char) : Prop := ∀ c ∈ s, isWordChar c = true

instance (s : List Char) : Decidable (IsWord s) := decidable_of_iff (s.all isWordChar = true) List.all_eq_true

/-- The word with which a text begins; empty if it begins with none. -/
def leadingWord (s : List Char) : List Char := s.takeWhile isWordChar

/-- Whether an expression ends in front of a character: neither a word nor a bracket that opens goes on there. -/
def isStop (c : Char) : Bool := !isWordChar c && c ≠ '(' && c ≠ '['

/-- An expression in front of the text ends where the text begins. -/
def Stops (s : List Char) : Prop := s.head?.all isStop = true

section Words

variable {a s : List Char}

/-- The character at which an expression stops is no part of a word, and it opens no bracket. -/
theorem Stops.of_head (h : Stops s) {c : Char} (hc : s.head? = some c) : isWordChar c = false ∧ c ≠ '(' ∧ c ≠ '[' := by
  have hstop := (Option.all_eq_true isStop s.head?).mp h c hc
  simpa [isStop, and_assoc] using hstop

/-- The word with which a text begins ends with it, or where no word goes on. -/
theorem leadingWord_append (ha : IsWord a) (hs : ∀ c, s.head? = some c → isWordChar c = false) :
    leadingWord (a ++ s) = a := takeWhile_append_of_stop ha hs

end Words

/-! ## Names

A name is an identifier that is not reserved.  Being reserved matters at the beginning of a line only, where the word decides
of which form a statement is. -/

/-- Whether a character can begin a name. -/
def isNameStart (c : Char) : Bool := c.isAlpha || c = '_'

/-- Whether a text is an identifier of C. -/
def isIdentifier (s : String) : Bool :=
  match s.toList with
  | [] => false
  | c :: rest => isNameStart c && rest.all fun d => d.isAlphanum || d = '_'

/-- The words that no variable and no function is named by. -/
def keywords : List String := ["if", "else", "for", "while", "return", "int", "const", "char", "void"]

/-- A name of a variable or function. -/
structure IsCName (s : String) : Prop where
  /-- It is an identifier. -/
  identifier : isIdentifier s
  /-- It is no keyword. -/
  free : s ∉ keywords

instance (s : String) : Decidable (IsCName s) :=
  decidable_of_iff (isIdentifier s = true ∧ s ∉ keywords) ⟨fun h => ⟨h.1, h.2⟩, fun h => ⟨h.identifier, h.free⟩⟩

section Names

variable {s : String}

/-- A character that can begin a name can stand in one. -/
theorem isWordChar_of_isNameStart {c : Char} (h : isNameStart c) : isWordChar c := by
  rcases Bool.or_eq_true_iff.mp h with halpha | hline
  · simp [isWordChar, Char.isAlphanum, halpha]
  · simp [isWordChar, hline]

theorem IsCName.start (h : IsCName s) : ∃ c rest, s.toList = c :: rest ∧ isNameStart c := by
  have hidentifier := h.identifier
  unfold isIdentifier at hidentifier
  split at hidentifier
  · cases hidentifier
  · rename_i c rest hlist
    exact ⟨c, rest, hlist, (Bool.and_eq_true_iff.mp hidentifier).1⟩

theorem IsCName.isWord (h : IsCName s) : IsWord s.toList := by
  have hidentifier := h.identifier
  unfold isIdentifier at hidentifier
  split at hidentifier
  · cases hidentifier
  · rename_i c rest hlist
    obtain ⟨hfirst, hrest⟩ := Bool.and_eq_true_iff.mp hidentifier
    intro d hd
    rw [hlist, List.mem_cons] at hd
    rcases hd with rfl | hd
    · exact isWordChar_of_isNameStart hfirst
    · have hchar := List.all_eq_true.mp hrest d hd
      rw [isWordChar, hchar, Bool.true_or]

/-- What stands in a name is no brace, no blank and no end of a line. -/
theorem IsCName.neat (h : IsCName s) : NeatName s := by
  -- none of the characters that are excluded can stand in a word
  have hne : ∀ d : Char, isWordChar d = false → d ∉ s.toList := by
    intro d hd hm
    rw [h.isWord d hm] at hd
    cases hd
  obtain ⟨c, rest, hlist, -⟩ := h.start
  refine ⟨⟨⟨hne '\n' (by decide), balanced_of_no_brace fun d hd => ⟨?_, ?_⟩⟩, fun hhead => ?_⟩, ?_⟩
  · rintro rfl
    exact hne '{' (by decide) hd
  · rintro rfl
    exact hne '}' (by decide) hd
  · exact hne ' ' (by decide) (List.mem_of_mem_head? hhead)
  · rintro rfl
    cases hlist

end Names

/-! ## Numbers

The decimals of an integer are digits, with a minus sign in front of a negative one.  They determine it. -/

section Numbers

variable {m n : Int}

theorem toString_int_isWord (n : Int) : IsWord (toString n).toList := by
  intro c hc
  rcases mem_toString_int hc with rfl | hdigit
  · decide
  · simp [isWordChar, Char.isAlphanum, hdigit]

/-- No digit begins a name. -/
theorem isNameStart_of_isDigit {c : Char} (h : c.isDigit) : isNameStart c = false := by
  have hline : c ≠ '_' := by
    rintro rfl
    cases h
  have hnine : c.val ≤ '9'.val := of_decide_eq_true (Bool.and_eq_true_iff.mp h).2
  -- digits lie below the letters, upper and lower case, in the order of characters
  have halpha : c.isAlpha = false := by
    refine Bool.eq_false_iff.mpr fun hletter => ?_
    rcases Bool.or_eq_true_iff.mp hletter with hupper | hlower
    · have hA : 'A'.val ≤ c.val := (of_decide_eq_true hupper).1
      exact absurd (UInt32.le_trans hA hnine) (by decide)
    · have ha : 'a'.val ≤ c.val := of_decide_eq_true (Bool.and_eq_true_iff.mp hlower).1
      exact absurd (UInt32.le_trans ha hnine) (by decide)
  simp [isNameStart, halpha, hline]

/-- A number is written, and it does not begin like a name. -/
theorem toString_int_start (n : Int) : ∃ c rest, (toString n).toList = c :: rest ∧ isNameStart c = false := by
  cases hlist : (toString n).toList with
  | nil =>
    have hempty : toString n = "" := String.toList_eq_nil_iff.mp hlist
    cases n with
    | ofNat m => exact absurd hempty Nat.repr_ne_empty
    | negSucc m => exact absurd (String.append_eq_empty_iff.mp hempty).1 (by decide)
  | cons c rest =>
    refine ⟨c, rest, rfl, ?_⟩
    rcases mem_toString_int (hlist ▸ List.mem_cons_self) with rfl | hdigit
    · decide
    · exact isNameStart_of_isDigit hdigit

/-- No digit stands for the sign. -/
theorem toString_nat_ne_negative (m k : Nat) : toString (Int.ofNat m) ≠ toString (Int.negSucc k) := by
  intro h
  have hsign : '-' ∈ (toString m).toList := by
    have hlist : (toString m).toList = ("-" ++ toString (k + 1)).toList := congrArg String.toList h
    rw [hlist, String.toList_append]
    exact List.mem_append_left _ List.mem_cons_self
  exact absurd (isDigit_of_mem_toString hsign) (by decide)

/-- Integers are told apart by how they are written. -/
theorem toString_int_injective (h : toString m = toString n) : m = n := by
  cases m with
  | ofNat m =>
    cases n with
    | ofNat n => exact congrArg Int.ofNat (toString_injective h)
    | negSucc n => exact absurd h (toString_nat_ne_negative m n)
  | negSucc m =>
    cases n with
    | ofNat n => exact absurd h.symm (toString_nat_ne_negative n m)
    | negSucc n =>
      have hdigits : toString (m + 1) = toString (n + 1) := (String.append_right_inj "-").mp h
      exact congrArg Int.negSucc (Nat.succ.inj (toString_injective hdigits))

end Numbers

end SeedCorpus
