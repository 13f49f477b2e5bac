/-
  Braces in a text.

  The balance of a text is the number of its opening braces less that of its closing ones.  A text is balanced (`Balanced`)
  when its balance is never negative on the way and zero in the end; behind a text with open braces it may close some of
  them (`Affords`).  Both are kept when texts are put together, so a text can be followed brace by brace.

  1. `Affords.append`, `Affords.cons`, `Balanced.append`: balances add up.
  2. `balanced_iff`: whether a text is balanced can be decided, as its fronts are finitely many.
  3. `Balanced.head_ne`: a balanced text does not begin with a closing brace.
-/
namespace SeedCorpus

/-! ## Balances

Texts are lists of characters here. -/

/-- The opening braces of a text less the closing ones. -/
def balance (s : List Char) : Int := (s.count '{' : Int) - s.count '}'

/-- Behind a text that has left `b` braces open, no brace of this one is closed that was not opened. -/
def Affords (b : Int) (s : List Char) : Prop := ∀ front back, s = front ++ back → 0 ≤ b + balance front

/-- Every brace is closed, and none that was not opened. -/
structure Balanced (s : List Char) : Prop where
  /-- On the way no closing brace comes too early. -/
  sane : Affords 0 s
  /-- In the end none is open. -/
  settled : balance s = 0

section Balance

variable {b : Int} {s t : List Char}

theorem balance_nil : balance [] = 0 := rfl

/-- The balance of two texts is the sum of theirs. -/
theorem balance_append (s t : List Char) : balance (s ++ t) = balance s + balance t := by
  simp only [balance, List.count_append, Int.natCast_add]
  omega

/-- Characters that are no braces do not count. -/
theorem balance_eq_zero (h : ∀ c ∈ s, c ≠ '{' ∧ c ≠ '}') : balance s = 0 := by
  have hopen : s.count '{' = 0 := List.count_eq_zero.mpr fun hm => (h _ hm).1 rfl
  have hclose : s.count '}' = 0 := List.count_eq_zero.mpr fun hm => (h _ hm).2 rfl
  simp [balance, hopen, hclose]

/-- What is open in front is no debt. -/
theorem Affords.start (h : Affords b s) : 0 ≤ b := by
  have hnil := h [] s rfl
  rwa [balance_nil, Int.add_zero] at hnil

/-- Behind the whole text none is either. -/
theorem Affords.all (h : Affords b s) : 0 ≤ b + balance s := h s [] (List.append_nil s).symm

/-- A text, and then one that affords what is open behind it. -/
theorem Affords.append (hs : Affords b s) (ht : Affords (b + balance s) t) : Affords b (s ++ t) := by
  intro front back he
  rcases List.append_eq_append_iff.mp he with ⟨more, rfl, rfl⟩ | ⟨more, rfl, -⟩
  · -- the front goes beyond the first text
    have hmore := ht more back rfl
    rw [balance_append]
    omega
  · exact hs front more rfl

/-- One character, and then a text that what is open behind it affords. -/
theorem Affords.cons {c : Char} (hb : 0 ≤ b) (hs : Affords (b + balance [c]) s) : Affords b (c :: s) := by
  refine Affords.append (s := [c]) ?_ hs
  intro front back he
  -- a front of one character is empty, or it is all of it
  rcases List.cons_eq_append_iff.mp he with ⟨rfl, -⟩ | ⟨more, rfl, hmore⟩
  · rw [balance_nil, Int.add_zero]
    exact hb
  · obtain ⟨rfl, -⟩ := List.append_eq_nil_iff.mp hmore.symm
    exact hs.start

/-- A front of an affordable text is affordable. -/
theorem Affords.front (h : Affords b (s ++ t)) : Affords b s := by
  rintro front back rfl
  exact h front (back ++ t) (List.append_assoc _ _ _)

theorem affords_of_no_brace (hb : 0 ≤ b) (h : ∀ c ∈ s, c ≠ '{' ∧ c ≠ '}') : Affords b s := by
  rintro front back rfl
  rw [balance_eq_zero fun c hc => h c (List.mem_append_left back hc)]
  omega

theorem balanced_of_no_brace (h : ∀ c ∈ s, c ≠ '{' ∧ c ≠ '}') : Balanced s :=
  ⟨affords_of_no_brace (Int.le_refl 0) h, balance_eq_zero h⟩

/-- The fronts of a text are finitely many, so balances can be checked. -/
theorem balanced_iff : (∀ n < s.length + 1, 0 ≤ balance (s.take n)) ∧ balance s = 0 ↔ Balanced s := by
  constructor
  · rintro ⟨hfronts, htotal⟩
    refine ⟨?_, htotal⟩
    rintro front back rfl
    have hfront := hfronts front.length (by rw [List.length_append]; omega)
    rw [List.take_left] at hfront
    omega
  · intro h
    refine ⟨fun n _ => ?_, h.settled⟩
    have hfront := h.sane (s.take n) (s.drop n) (List.take_append_drop n s).symm
    omega

instance (s : List Char) : Decidable (Balanced s) := decidable_of_iff _ balanced_iff

/-- A balanced text can stand anywhere. -/
theorem Balanced.affords (h : Balanced s) (hb : 0 ≤ b) : Affords b s := by
  intro front back he
  have hfront := h.sane front back he
  omega

/-- Balanced texts one after the other are balanced. -/
theorem Balanced.append (hs : Balanced s) (ht : Balanced t) : Balanced (s ++ t) where
  sane := by
    refine hs.sane.append ?_
    rw [hs.settled]
    exact ht.sane
  settled := by rw [balance_append, hs.settled, ht.settled]; rfl

/-- A balanced text does not begin with a closing brace. -/
theorem Balanced.head_ne (h : Balanced s) : s.head? ≠ some '}' := by
  intro hhead
  cases s with
  | nil => cases hhead
  | cons c rest =>
    obtain rfl := Option.some.inj hhead
    have hfirst := h.sane ['}'] rest rfl
    have hone : balance ['}'] = -1 := by decide
    omega

/-- A balanced text stays balanced when characters that are no braces are taken from its end. -/
theorem Balanced.of_append (h : Balanced (s ++ t)) (ht : ∀ c ∈ t, c ≠ '{' ∧ c ≠ '}') : Balanced s where
  sane := h.sane.front
  settled := by
    have hboth := h.settled
    rw [balance_append, balance_eq_zero ht] at hboth
    omega

end Balance

end SeedCorpus
