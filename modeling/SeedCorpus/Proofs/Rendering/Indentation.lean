/-
  Indentation follows the braces.

  Braces are written as text and the depth of an emitter is counted beside it.  The two never drift apart
  (`Emitter.InStep`): the depth is the balance of what is written, and every line of it is indented by two blanks for each
  brace that the lines before it have left open, one less if it closes one itself (`IndentedBy`).

  1. A new line keeps an emitter in step (`InStep.line`), and so does what is put behind an open line (`InStep.inline`), if
     that line holds more than blanks.
  2. An opening brace goes with a step in (`InStep.opened`), and a closing one with a step out (`InStep.closed`).
  3. So a statement leaves an emitter in step that it finds in step, also in the header of a loop (`Stmt.emit_inStep`), and
     what is rendered on its own is laid out by its braces (`render_laidOutBy`).
-/
import SeedCorpus.Proofs.Rendering.Braces
import SeedCorpus.Proofs.Syntax.Nodes

namespace SeedCorpus

/-! ## Lines and their indentation

The level of a line is computed from the lines before it, so that lines are looked at from the front.  They grow at the end;
what is said of them is therefore put together line by line (`indentedBy_append`). -/

/-- The lines of a text; an empty one has none. -/
def textLines (text : String) : List String := if text = "" then [] else linesOf text

/-- How many blanks a line begins with. -/
def leadingBlanks (line : String) : Nat := (line.toList.takeWhile (· = ' ')).length

/-- Whether the first character of a line that is no blank is a closing brace. -/
def closesFirst (line : String) : Bool := (line.toList.dropWhile (· = ' ')).head? = some '}'

/-- The braces that lines leave open. -/
def openAfter (ls : List String) : Int := (ls.map fun l => balance l.toList).sum

/-- The level of a line behind others, if `base` is that of the first line. -/
def levelOf (base : Nat) (before : List String) (line : String) : Int :=
  base + openAfter before - if closesFirst line then 1 else 0

/-- Every line is indented by two blanks for each level. -/
def IndentedBy (base : Nat) (ls : List String) : Prop :=
  ∀ before line after, ls = before ++ line :: after → (leadingBlanks line : Int) = 2 * levelOf base before line

/-- The braces of a text match, and its lines are indented by them. -/
structure LaidOutBy (base : Nat) (text : String) : Prop where
  /-- The braces match. -/
  balanced : Balanced text.toList
  /-- The lines are indented by the braces before them. -/
  indented : IndentedBy base (textLines text)

section Lines

variable {base : Nat} {ls : List String} {line text s t : String}

/-- What lines leave open adds up. -/
theorem openAfter_append (ls ms : List String) : openAfter (ls ++ ms) = openAfter ls + openAfter ms := by
  simp [openAfter]

theorem openAfter_singleton (line : String) : openAfter [line] = balance line.toList := by
  simp [openAfter]

theorem indentedBy_nil : IndentedBy base [] := by
  intro before line after he
  exact absurd he.symm (by simp)

/-- One more line, which stands at its level. -/
theorem indentedBy_append (h : IndentedBy base ls) (hl : (leadingBlanks line : Int) = 2 * levelOf base ls line) :
    IndentedBy base (ls ++ [line]) := by
  intro before l after he
  -- the line in question is the last one, or it was there before
  rcases List.eq_nil_or_concat after with rfl | ⟨front, last, rfl⟩
  · obtain ⟨rfl, hlast⟩ := List.append_inj' he rfl
    obtain rfl := List.singleton_inj.mp hlast
    exact hl
  · rw [List.concat_eq_append, ← List.cons_append, ← List.append_assoc] at he
    obtain ⟨hls, -⟩ := List.append_inj' he rfl
    exact h before l front hls

/-- The last line stands at its level. -/
theorem IndentedBy.last (h : IndentedBy base (ls ++ [line])) : (leadingBlanks line : Int) = 2 * levelOf base ls line :=
  h ls line [] rfl

/-- The lines before it stand at theirs. -/
theorem IndentedBy.front (h : IndentedBy base (ls ++ [line])) : IndentedBy base ls := by
  rintro before l after rfl
  exact h before l (after ++ [line]) (List.append_assoc _ _ _)

/-- A line holds more than blanks. -/
def HasInk (line : String) : Prop := ∃ c ∈ line.toList, c ≠ ' '

theorem HasInk.ne (h : HasInk line) : line ≠ "" := by
  obtain ⟨c, hc, -⟩ := h
  rintro rfl
  exact absurd hc (by simp)

/-- A name holds more than blanks, as it does not begin with one. -/
theorem NeatName.hasInk (h : NeatName s) : HasInk s := by
  obtain ⟨c, rest, hlist⟩ := List.exists_cons_of_ne_nil fun hl => h.nonempty (String.toList_eq_nil_iff.mp hl)
  have hflush := h.flush
  rw [Flush, hlist] at hflush
  refine ⟨c, by rw [hlist]; exact List.mem_cons_self, fun he => hflush ?_⟩
  rw [he, List.head?_cons]

/-- What stands behind a character that is no blank changes neither the indentation nor what comes first. -/
theorem HasInk.append (h : HasInk line) (t : String) :
    HasInk (line ++ t) ∧ leadingBlanks (line ++ t) = leadingBlanks line ∧ closesFirst (line ++ t) = closesFirst line := by
  obtain ⟨c, hc, hne⟩ := h
  refine ⟨⟨c, by rw [String.toList_append]; exact List.mem_append_left _ hc, hne⟩, ?_⟩
  have hblanks : ∀ x ∈ line.toList.takeWhile (· = ' '), decide (x = ' ') = true := by
    intro x hx
    exact List.all_eq_true.mp List.all_takeWhile x hx
  have hsplit : line.toList.takeWhile (· = ' ') ++ line.toList.dropWhile (· = ' ') = line.toList :=
    List.takeWhile_append_dropWhile
  have hrest : line.toList.dropWhile (· = ' ') ≠ [] := by
    intro hnil
    rw [hnil, List.append_nil] at hsplit
    rw [← hsplit] at hc
    exact hne (of_decide_eq_true (hblanks c hc))
  -- the line is blanks, a character that is none, and more
  obtain ⟨front, rest, hdrop⟩ := List.exists_cons_of_ne_nil hrest
  have hstop : decide (front = ' ') = false := by
    have hhead := List.head_dropWhile_not (fun x : Char => decide (x = ' ')) hrest
    simpa only [hdrop, List.head_cons] using hhead
  have hline : line.toList = line.toList.takeWhile (· = ' ') ++ front :: rest := by
    rw [← hdrop, hsplit]
  constructor
  · rw [leadingBlanks, String.toList_append, hline, List.append_assoc, List.takeWhile_append_of_pos hblanks,
      List.cons_append, List.takeWhile_cons, hstop, leadingBlanks]
    simp
  · rw [closesFirst, String.toList_append, hline, List.append_assoc, List.dropWhile_append_of_pos hblanks,
      List.cons_append, List.dropWhile_cons, hstop, closesFirst, hdrop]
    rfl

/-- A text that does not begin with a blank has only those in front that are put there. -/
theorem leadingBlanks_indentation (depth : Nat) (h : Flush s) :
    leadingBlanks (Emitter.indentation depth ++ s) = 2 * depth := by
  have hblanks : ∀ x ∈ List.replicate (2 * depth) ' ', decide (x = ' ') = true := by
    intro x hx
    exact decide_eq_true (List.eq_of_mem_replicate hx)
  have hstop : s.toList.takeWhile (· = ' ') = [] := by
    cases hl : s.toList with
    | nil => rfl
    | cons c rest =>
      rw [Flush, hl] at h
      exact List.takeWhile_cons_of_neg (by simpa using h)
  rw [leadingBlanks, Emitter.indentation, String.toList_append, String.toList_ofList,
    List.takeWhile_append_of_pos hblanks, hstop]
  simp

/-- Whether it closes a brace first is seen behind them. -/
theorem closesFirst_indentation (depth : Nat) (h : Flush s) :
    closesFirst (Emitter.indentation depth ++ s) = decide (s.toList.head? = some '}') := by
  have hblanks : ∀ x ∈ List.replicate (2 * depth) ' ', decide (x = ' ') = true := by
    intro x hx
    exact decide_eq_true (List.eq_of_mem_replicate hx)
  have hstop : s.toList.dropWhile (· = ' ') = s.toList := by
    cases hl : s.toList with
    | nil => rfl
    | cons c rest =>
      rw [Flush, hl] at h
      exact List.dropWhile_cons_of_neg (by simpa using h)
  rw [closesFirst, Emitter.indentation, String.toList_append, String.toList_ofList,
    List.dropWhile_append_of_pos hblanks, hstop]

/-- Blanks are no braces. -/
theorem balance_indentation (depth : Nat) (s : String) :
    balance (Emitter.indentation depth ++ s).toList = balance s.toList := by
  have hblanks : balance (List.replicate (2 * depth) ' ') = 0 := by
    refine balance_eq_zero fun c hc => ?_
    rw [List.eq_of_mem_replicate hc]
    decide
  rw [Emitter.indentation, String.toList_append, String.toList_ofList, balance_append, hblanks, Int.zero_add]

/-! ## Lines of texts that grow

A text grows by a piece behind its last line or by a new line. -/

/-- A piece without the separator goes to the last part. -/
theorem splitOn_append_of_notMem {x : Char} {t : List Char} (ht : x ∉ t) :
    ∀ (s : List Char) (front : List (List Char)) (last : List Char), s.splitOn x = front ++ [last] →
      (s ++ t).splitOn x = front ++ [last ++ t] := by
  intro s
  induction s with
  | nil =>
    intro front last h
    have hnil : [] ++ [[]] = front ++ [last] := h
    obtain ⟨rfl, hlast⟩ := List.append_inj' hnil rfl
    obtain rfl := List.singleton_inj.mp hlast
    exact List.splitOn_eq_singleton ht
  | cons c s ih =>
    intro front last h
    rw [List.splitOn_cons_eq_if_modifyHead] at h
    rw [List.cons_append, List.splitOn_cons_eq_if_modifyHead]
    -- the first character is a separator, or it belongs to the first part
    split at h
    · rename_i hc
      rw [if_pos hc]
      cases front with
      | nil => exact absurd (List.cons.inj h).2 (List.splitOn_ne_nil x s)
      | cons f front =>
        obtain ⟨rfl, hrest⟩ := List.cons.inj h
        rw [ih front last hrest]
        rfl
    · rename_i hc
      rw [if_neg hc]
      obtain ⟨f, rest, hs⟩ := List.exists_cons_of_ne_nil (List.splitOn_ne_nil x s)
      rw [hs, List.modifyHead_cons] at h
      cases front with
      | nil =>
        obtain ⟨rfl, rfl⟩ := List.cons.inj h
        rw [ih [] f hs]
        rfl
      | cons g front =>
        obtain ⟨rfl, rfl⟩ := List.cons.inj h
        rw [ih (f :: front) last hs]
        rfl

/-- What is put behind a text without a line end goes to its last line. -/
theorem linesOf_append (hs : '\n' ∉ s.toList) (h : linesOf text = ls ++ [line]) :
    linesOf (text ++ s) = ls ++ [line ++ s] := by
  obtain ⟨f, l, hsplit, rfl, hl⟩ := List.map_eq_append_iff.mp h
  obtain ⟨l, rest, rfl, rfl, hrest⟩ := List.map_eq_cons_iff.mp hl
  obtain rfl := List.map_eq_nil_iff.mp hrest
  rw [linesOf, String.toList_append, splitOn_append_of_notMem hs _ _ _ hsplit, List.map_append]
  simp

/-- What comes behind a line end is a line of its own. -/
theorem linesOf_nextLine (hs : '\n' ∉ s.toList) : linesOf (text ++ "\n" ++ s) = linesOf text ++ [s] := by
  have hlist : (text ++ "\n" ++ s).toList = text.toList ++ '\n' :: s.toList := by simp
  rw [linesOf, hlist, List.splitOn_append_cons_self, List.splitOn_eq_singleton hs, List.map_append, linesOf]
  simp

theorem textLines_of_oneLine (hne : s ≠ "") (hs : '\n' ∉ s.toList) : textLines s = [s] := by
  rw [textLines, if_neg hne, linesOf, List.splitOn_eq_singleton hs]
  simp

/-- A text that is not empty gets one more line. -/
theorem textLines_newLine (hne : text ≠ "") (hs : '\n' ∉ s.toList) :
    textLines (text ++ "\n" ++ s) = textLines text ++ [s] := by
  have hlong : text ++ "\n" ++ s ≠ "" := by
    intro he
    exact hne (String.append_eq_empty_iff.mp (String.append_eq_empty_iff.mp he).1).1
  rw [textLines, if_neg hlong, textLines, if_neg hne, linesOf_nextLine hs]

/-- A text with a last line has that line continued. -/
theorem textLines_continued (h : textLines text = ls ++ [line]) (ht : '\n' ∉ t.toList) :
    textLines (text ++ t) = ls ++ [line ++ t] := by
  have hne : text ≠ "" := by
    rintro rfl
    exact absurd h.symm (by simp [textLines])
  have hlong : text ++ t ≠ "" := fun he => hne (String.append_eq_empty_iff.mp he).1
  rw [textLines, if_neg hne] at h
  rw [textLines, if_neg hlong, linesOf_append ht h]

end Lines

/-! ## Emitters in step

The invariant has to do with braces in two ways: those of the whole text, which have to match, and those line by line, which
the indentation follows.  It is carried through lines that are still open, as the header of a loop is written piece by piece. -/

namespace Emitter

/-- What is written leaves `b` braces open and is indented by its braces, and the depth goes with the braces. -/
structure InStep (base : Nat) (b : Int) (e : Emitter) : Prop where
  /-- No brace is closed that was not opened. -/
  sane : Affords 0 e.text.toList
  /-- So many braces are open. -/
  total : balance e.text.toList = b
  /-- The lines leave as many open. -/
  lines : openAfter (textLines e.text) = b
  /-- The lines are indented by the braces before them. -/
  indented : IndentedBy base (textLines e.text)
  /-- The depth goes with the braces. -/
  depth : (e.depth : Int) = base + b

/-- The last line that is written holds more than blanks. -/
def Inked (e : Emitter) : Prop := ∃ ls line, textLines e.text = ls ++ [line] ∧ HasInk line

variable {base : Nat} {b : Int} {e : Emitter} {s t : String}

/-- An emitter with nothing written is in step, at any depth. -/
theorem inStep_start (depth : Nat) : InStep depth 0 { depth } where
  sane := affords_of_no_brace (Int.le_refl 0) nofun
  total := rfl
  lines := rfl
  indented := indentedBy_nil
  depth := (Int.add_zero _).symm

/-- No more braces are closed than were opened. -/
theorem InStep.nonneg (h : InStep base b e) : 0 ≤ b := by
  have hall := h.sane.all
  rw [h.total] at hall
  omega

/-- A new line is one more line, unless nothing is written at all. -/
theorem textLines_line (e : Emitter) (hs : '\n' ∉ s.toList) :
    textLines (e.line s).text = textLines e.text ++ [indentation e.depth ++ s] ∨
      (e.line s).text = "" ∧ e.text = "" ∧ s = "" := by
  have hpiece : '\n' ∉ (indentation e.depth ++ s).toList := by
    rw [indentation, String.toList_append, String.toList_ofList, List.mem_append]
    rintro (hm | hm)
    · exact absurd (List.eq_of_mem_replicate hm) (by decide)
    · exact hs hm
  -- the first line has no line end in front of it, and if it is empty there is none at all
  by_cases he : e.text = ""
  · have htext : (e.line s).text = indentation e.depth ++ s := by
      simp [line, he]
    by_cases hempty : indentation e.depth ++ s = ""
    · refine Or.inr ⟨htext.trans hempty, he, (String.append_eq_empty_iff.mp hempty).2⟩
    · left
      rw [htext, textLines_of_oneLine hempty hpiece, he]
      rfl
  · left
    have hfalse : e.text.isEmpty = false := String.isEmpty_eq_false_iff.mpr he
    have htext : (e.line s).text = e.text ++ "\n" ++ (indentation e.depth ++ s) := by
      simp [line, hfalse, String.append_assoc]
    rw [htext, textLines_newLine he hpiece]

/-- What a new line adds to the braces. -/
theorem balance_line (e : Emitter) (s : String) :
    balance (e.line s).text.toList = balance e.text.toList + balance s.toList ∧
      (Affords 0 e.text.toList → Affords (balance e.text.toList) s.toList → Affords 0 (e.line s).text.toList) := by
  -- between what is written and the new line stand blanks, and a line end perhaps
  have hgap : ∃ gap : List Char, (e.line s).text.toList = e.text.toList ++ (gap ++ s.toList) ∧
      ∀ c ∈ gap, c ≠ '{' ∧ c ≠ '}' := by
    have hblanks : ∀ c ∈ (indentation e.depth).toList, c ≠ '{' ∧ c ≠ '}' := by
      intro c hc
      rw [indentation, String.toList_ofList] at hc
      rw [List.eq_of_mem_replicate hc]
      decide
    by_cases he : e.text.isEmpty
    · refine ⟨(indentation e.depth).toList, ?_, hblanks⟩
      rw [line, if_pos he, String.isEmpty_iff.mp he]
      simp
    · refine ⟨'\n' :: (indentation e.depth).toList, ?_, ?_⟩
      · rw [line, if_neg he]
        simp
      · intro c hc
        rcases List.mem_cons.mp hc with rfl | hc
        · decide
        · exact hblanks c hc
  obtain ⟨gap, htext, hgap⟩ := hgap
  rw [htext, balance_append, balance_append, balance_eq_zero hgap]
  refine ⟨by omega, fun hsane hs => ?_⟩
  refine hsane.append ?_
  rw [Int.zero_add]
  refine (affords_of_no_brace hs.start hgap).append ?_
  rw [balance_eq_zero hgap, Int.add_zero]
  exact hs

/-- A line that stands at its level keeps an emitter in step. -/
theorem InStep.written (h : InStep base b e) (depth : Nat) (hs : '\n' ∉ s.toList) (hflush : Flush s)
    (haffords : Affords b s.toList)
    (hdepth : (depth : Int) = base + b - if s.toList.head? = some '}' then 1 else 0)
    (hnext : (depth : Int) = base + (b + balance s.toList)) :
    InStep base (b + balance s.toList) (({ e with depth }).line s) := by
  obtain ⟨htotal, hsane⟩ := balance_line ({ e with depth } : Emitter) s
  have hlines : openAfter (textLines (({ e with depth } : Emitter).line s).text) = b + balance s.toList ∧
      IndentedBy base (textLines (({ e with depth } : Emitter).line s).text) := by
    -- there is one more line, or nothing was written and still nothing is
    rcases textLines_line ({ e with depth } : Emitter) hs with hl | ⟨hl, he, rfl⟩
    · rw [hl]
      constructor
      · rw [openAfter_append, openAfter_singleton, balance_indentation, h.lines]
      · refine indentedBy_append h.indented ?_
        rw [leadingBlanks_indentation depth hflush, levelOf, closesFirst_indentation depth hflush, h.lines]
        simp only [decide_eq_true_eq]
        omega
    · rw [hl]
      have hnone := h.lines
      rw [show e.text = "" from he] at hnone
      refine ⟨?_, indentedBy_nil⟩
      have hempty : balance "".toList = 0 := rfl
      rw [hempty, hnone]
      omega
  exact ⟨hsane h.sane (h.total ▸ haffords), htotal.trans (by rw [h.total]), hlines.1, hlines.2, hnext⟩

/-- A new line whose braces match keeps an emitter in step. -/
theorem InStep.line (h : InStep base b e) (hs : Neat s) : InStep base b (e.line s) := by
  have hwritten := h.written e.depth hs.oneLine hs.flush (hs.balanced.affords h.nonneg)
    (by rw [if_neg hs.balanced.head_ne, h.depth, Int.sub_zero]) (by rw [hs.balanced.settled, h.depth, Int.add_zero])
  rw [hs.balanced.settled, Int.add_zero] at hwritten
  exact hwritten

/-- A new line with ink on it is an inked line. -/
theorem inked_line (e : Emitter) (hs : '\n' ∉ s.toList) (hink : HasInk s) : (e.line s).Inked := by
  rcases textLines_line e hs with hl | ⟨-, -, rfl⟩
  · refine ⟨_, _, hl, ?_⟩
    obtain ⟨c, hc, hne⟩ := hink
    exact ⟨c, by rw [String.toList_append]; exact List.mem_append_right _ hc, hne⟩
  · obtain ⟨c, hc, -⟩ := hink
    exact absurd hc (by simp)

/-- An inked line stays one. -/
theorem Inked.inline (h : e.Inked) (ht : '\n' ∉ t.toList) : (e.inline t).Inked := by
  obtain ⟨ls, l, hl, hink⟩ := h
  exact ⟨ls, l ++ t, textLines_continued hl ht, (hink.append t).1⟩

/-- What is put behind an inked line keeps an emitter in step with its braces. -/
theorem InStep.continued (h : InStep base b e) (depth : Nat) (hi : e.Inked) (ht : '\n' ∉ t.toList)
    (haffords : Affords b t.toList) (hnext : (depth : Int) = base + (b + balance t.toList)) :
    InStep base (b + balance t.toList) { e.inline t with depth } := by
  -- the last line goes on: its blanks are counted already, and its level is that of the lines before it
  obtain ⟨ls, l, hl, hink⟩ := hi
  have hlines : textLines (e.text ++ t) = ls ++ [l ++ t] := textLines_continued hl ht
  obtain ⟨-, hblanks, hcloses⟩ := hink.append t
  refine ⟨?_, ?_, ?_, ?_, hnext⟩
  · show Affords 0 (e.text ++ t).toList
    rw [String.toList_append]
    refine h.sane.append ?_
    rw [h.total, Int.zero_add]
    exact haffords
  · show balance (e.text ++ t).toList = _
    rw [String.toList_append, balance_append, h.total]
  · show openAfter (textLines (e.text ++ t)) = _
    have hbefore := h.lines
    rw [hl, openAfter_append, openAfter_singleton] at hbefore
    rw [hlines, openAfter_append, openAfter_singleton, String.toList_append, balance_append, ← hbefore]
    omega
  · show IndentedBy base (textLines (e.text ++ t))
    have hbefore := h.indented
    rw [hl] at hbefore
    rw [hlines]
    refine indentedBy_append hbefore.front ?_
    rw [hblanks, hbefore.last, levelOf, levelOf, hcloses]

/-- What is put behind an inked line keeps an emitter in step if its braces match. -/
theorem InStep.inline (h : InStep base b e) (hi : e.Inked) (ht : Tame t) : InStep base b (e.inline t) := by
  have hcontinued := h.continued e.depth hi ht.oneLine (ht.balanced.affords h.nonneg)
    (by rw [ht.balanced.settled, h.depth, Int.add_zero])
  rw [ht.balanced.settled, Int.add_zero] at hcontinued
  exact hcontinued

/-- An opening brace goes with a step in. -/
theorem InStep.opened (h : InStep base b e) (hi : e.Inked) : InStep base (b + 1) (e.inline "\x7b").enter := by
  have hlist : "\x7b".toList = ['{'] := rfl
  have hopen : balance ['{'] = 1 := by decide
  have hb := h.nonneg
  have hdepth := h.depth
  have haffords : Affords b "\x7b".toList := by
    rw [hlist]
    refine Affords.cons hb (affords_of_no_brace ?_ nofun)
    omega
  have hcontinued := h.continued (e.depth + 1) hi (by decide) haffords (by rw [hlist]; omega)
  rw [hlist, hopen] at hcontinued
  exact hcontinued

/-- A closing brace goes with a step out. -/
theorem InStep.closed (h : InStep base (b + 1) e) (hb : 0 ≤ b) (ht : Tame t) :
    InStep base b (e.exit.line ("\x7d" ++ t)) ∧ (e.exit.line ("\x7d" ++ t)).Inked := by
  have hlist : ("\x7d" ++ t).toList = '}' :: t.toList := by simp
  have hline : '\n' ∉ ("\x7d" ++ t).toList := by
    rw [hlist, List.mem_cons]
    exact not_or.mpr ⟨by decide, ht.oneLine⟩
  have hclose : balance ['}'] = -1 := by decide
  have htotal : balance ("\x7d" ++ t).toList = -1 := by
    rw [hlist, ← List.singleton_append, balance_append, hclose, ht.balanced.settled]
    rfl
  have haffords : Affords (b + 1) ("\x7d" ++ t).toList := by
    rw [hlist]
    refine Affords.cons (by omega) ?_
    rw [hclose]
    exact ht.balanced.affords (by omega)
  have hdepth := h.depth
  refine ⟨?_, inked_line _ hline ⟨'}', by rw [hlist]; exact List.mem_cons_self, by decide⟩⟩
  -- the line stands one level further out, as it begins with the brace
  have hwritten := h.written (e.depth - 1) hline (by rw [Flush, hlist]; simp) haffords
    (by rw [hlist, List.head?_cons, if_pos rfl]; omega) (by rw [htotal]; omega)
  rw [htotal] at hwritten
  have hb' : b + 1 + -1 = b := by omega
  rw [hb'] at hwritten
  exact hwritten

theorem inline_inline (e : Emitter) (s t : String) : (e.inline s).inline t = e.inline (s ++ t) := by
  simp [inline, String.append_assoc]

/-- A line that ends in an opening brace. -/
theorem InStep.heading (h : InStep base b e) (hs : Neat s) (hink : HasInk s) :
    InStep base (b + 1) (e.line (s ++ "\x7b")).enter := by
  rw [← line_inline]
  exact (h.line hs).opened (inked_line e hs.oneLine hink)

/-- The line that ends a block. -/
theorem InStep.ended (h : InStep base (b + 1) e) (hb : 0 ≤ b) :
    InStep base b (e.exit.line "\x7d") ∧ (e.exit.line "\x7d").Inked := h.closed hb (t := "") (Tame.literal (by rfl))

/-- The line between the two blocks of a conditional. -/
theorem InStep.turned (h : InStep base (b + 1) e) (hb : 0 ≤ b) :
    InStep base (b + 1) (e.exit.line "\x7d else \x7b").enter := by
  obtain ⟨hstep, hink⟩ := h.closed hb (t := " else ") (Tame.literal (by rfl))
  have hopened := hstep.opened hink
  rw [line_inline] at hopened
  exact hopened

end Emitter

/-! ## Statements keep in step

A statement is written at a level and leaves that level behind.  In a header it goes on with the line that is there, and
leaves that line open. -/

open SeedCorpus.Emitter

/-- The names and texts with which a statement begins or is put together are neat. -/
def Stmt.IsNeat (r : Registry) : Stmt → Prop
  | .assign _ op _ => ∀ o, op = some o → NeatName (r.text o.sign)
  | .declare type declarator _ => NeatName (r.spelling type) ∧ NeatName (r.variableName declarator.variable)
  | .raw line => Neat line
  | _ => True

/-- The names in a function and the texts in its body are neat. -/
structure Func.IsNeat (r : Registry) (f : Func) : Prop where
  /-- The type of the result. -/
  returnType : NeatName (r.spelling f.returnType)
  /-- The name. -/
  name : NeatName (r.text f.name)
  /-- The names of the parameters. -/
  params : ∀ p ∈ f.params, NeatName (r.variableName p)
  /-- The types of the parameters. -/
  types : ∀ p ∈ f.params, ∀ v, r.variableAt? p = some v → NeatName (r.spelling v.type)
  /-- The body. -/
  body : Block.MadeOf (Expr.IsNeat r) (Stmt.IsNeat r) (f.body.getD [])

section Statements

variable {r : Registry} {base : Nat} {b : Int} {e : Emitter}

/-- A place begins with a name. -/
theorem Place.render_neat {p : Place} (h : p.toExpr.All (Expr.IsNeat r)) : NeatName (p.render r) := by
  have hneat := Expr.render_neat r p.toExpr h
  cases p with
  | var v => exact h.self
  | element base at_ =>
    have hbase : NeatName (r.variableName base) := h.self
    refine ⟨hneat, fun he => hbase.nonempty ?_⟩
    have hfront : r.variableName base ++ "[" = "" := (String.append_eq_empty_iff.mp (String.append_eq_empty_iff.mp he).1).1
    exact (String.append_eq_empty_iff.mp hfront).1

/-- An assignment begins with a place. -/
theorem Stmt.assignText_neat {target : Place} {op : Option Operation} {value : Expr}
    (h : (Stmt.assign target op value).MadeOf (Expr.IsNeat r) (Stmt.IsNeat r)) :
    Neat (Stmt.assignText r target op value) := by
  obtain ⟨htarget, hvalue⟩ := h.assign
  have hname := Place.render_neat htarget
  have hsign : Tame ((op.map (r.text ·.sign)).getD "") := by
    cases op with
    | none => exact Tame.literal (by rfl)
    | some o => exact (h.self o rfl).toTame
  have hblank : Tame " " := Tame.literal (by rfl)
  have hequals : Tame "= " := Tame.literal (by rfl)
  have hrest := ((hblank.append hsign).append hequals).append (Expr.render_neat r value hvalue).toTame
  have hall := hname.toNeat.append_of_ne hname.nonempty hrest
  simpa only [Stmt.assignText, String.append_assoc] using hall

/-- A declaration begins with a type. -/
theorem Stmt.declareText_neat {type : ValueType} {declarator : Declarator} {value : Expr}
    (h : (Stmt.declare type declarator value).MadeOf (Expr.IsNeat r) (Stmt.IsNeat r)) :
    Neat (Stmt.declareText r type declarator value) := by
  obtain ⟨htype, hvariable⟩ := h.self
  have hdeclarator : Tame (declarator.render r) := by
    cases declarator with
    | scalar v => exact hvariable.toTame
    | array v => exact hvariable.toTame.append (Tame.literal (by rfl))
  have hblank : Tame " " := Tame.literal (by rfl)
  have hequals : Tame " = " := Tame.literal (by rfl)
  have hrest := ((hblank.append hdeclarator).append hequals).append (Expr.render_neat r value h.declare).toTame
  have hall := htype.toNeat.append_of_ne htype.nonempty hrest
  simpa only [Stmt.declareText, String.append_assoc] using hall

/-- A simple statement keeps in step, wherever it stands. -/
theorem Emitter.InStep.simple {text : String} (h : InStep base b e) (ht : Neat text) (position : Position)
    (hi : position = .header → e.Inked) :
    InStep base b (e.simple position text) ∧ (position = .header → (e.simple position text).Inked) := by
  cases position with
  | line =>
    have hline : e.simple .line text = e.line (text ++ ";") := by
      rw [Emitter.simple, line_inline, line_inline, String.empty_append]
    rw [hline]
    exact ⟨h.line (ht.append ⟨Tame.literal (by rfl), by decide⟩), nofun⟩
  | header => exact ⟨h.inline (hi rfl) ht.toTame, fun _ => (hi rfl).inline ht.oneLine⟩

/-- The line that opens a conditional or a loop. -/
theorem Emitter.InStep.condition (h : InStep base b e) (keyword : String) (hk : Neat keyword) (hink : HasInk keyword)
    {c : Expr} (hc : c.All (Expr.IsNeat r)) :
    InStep base (b + 1) (((e.line keyword).inline (c.render r)).inline ") \x7b").enter := by
  have htext := Expr.render_neat r c hc
  have hclose : Tame ") " := Tame.literal (by rfl)
  have hfront : Neat (keyword ++ c.render r) := hk.append_of_ne hink.ne htext.toTame
  have hinkFront : HasInk (keyword ++ c.render r) := (hink.append _).1
  have hheading := h.heading (hfront.append_of_ne hinkFront.ne hclose) (hinkFront.append _).1
  -- it is one line, written in three pieces
  have hline : ((e.line keyword).inline (c.render r)).inline ") \x7b" = e.line (keyword ++ c.render r ++ ") " ++ "\x7b") := by
    rw [line_inline, line_inline]
    simp only [String.append_assoc]
    rfl
  rw [hline]
  exact hheading

mutual

/-- A statement keeps an emitter in step: on lines of its own, and behind an inked line if it stands in a header. -/
theorem Stmt.emit_inStep (r : Registry) : ∀ (s : Stmt) (position : Position) {e : Emitter} {b : Int},
    s.MadeOf (Expr.IsNeat r) (Stmt.IsNeat r) → InStep base b e → (position = .header → e.Inked) →
      InStep base b (s.emit r position e) ∧ (position = .header → (s.emit r position e).Inked)
  | .assign target op value, position, e, b, hs, h, hi => by
    rw [Stmt.emit]
    exact h.simple (Stmt.assignText_neat hs) position hi
  | .declare type declarator value, position, e, b, hs, h, hi => by
    rw [Stmt.emit]
    exact h.simple (Stmt.declareText_neat hs) position hi
  | .effect value, position, e, b, hs, h, hi => by
    rw [Stmt.emit]
    exact h.simple (Expr.render_neat r value hs.effect) position hi
  | .raw text, position, e, b, hs, h, hi => by
    have htext : Neat text := hs.self
    cases position with
    | line =>
      rw [Stmt.emit]
      exact ⟨h.line htext, nofun⟩
    | header =>
      have hbare := htext.toTame.withoutSemicolons
      rw [Stmt.emit]
      exact ⟨h.inline (hi rfl) hbare, fun _ => (hi rfl).inline hbare.oneLine⟩
  | .result value, position, e, b, hs, h, hi => by
    have hreturn : Neat "return " := ⟨Tame.literal (by rfl), by decide⟩
    have hink : HasInk "return " := ⟨'r', by decide, by decide⟩
    have hsemicolon : Tame ";" := Tame.literal (by rfl)
    have hfront : HasInk ("return " ++ value.render r) := (hink.append _).1
    have hline := (hreturn.append_of_ne hink.ne (Expr.render_neat r value hs.result).toTame).append_of_ne hfront.ne
      hsemicolon
    -- a return is one line as well
    rw [Stmt.emit, line_inline, line_inline]
    exact ⟨h.line hline, fun _ => inked_line e hline.oneLine (hfront.append _).1⟩
  | .branch condition body none, position, e, b, hs, h, hi => by
    obtain ⟨hcondition, hbody⟩ := hs.whenever
    have hif := h.condition "if (" ⟨Tame.literal (by rfl), by decide⟩ ⟨'i', by decide, by decide⟩ hcondition
    have hended := (emitAll_inStep r body hbody hif).ended h.nonneg
    rw [Stmt.emit]
    exact ⟨hended.1, fun _ => hended.2⟩
  | .branch condition body (some other), position, e, b, hs, h, hi => by
    obtain ⟨hcondition, hbody, hother⟩ := hs.branch
    have hif := h.condition "if (" ⟨Tame.literal (by rfl), by decide⟩ ⟨'i', by decide, by decide⟩ hcondition
    have hturned := (emitAll_inStep r body hbody hif).turned h.nonneg
    have hended := (emitAll_inStep r other hother hturned).ended h.nonneg
    rw [Stmt.emit]
    exact ⟨hended.1, fun _ => hended.2⟩
  | .count start condition step body, position, e, b, hs, h, hi => by
    obtain ⟨hstart, hcondition, hstep, hbody⟩ := hs.count
    have hfor : Neat "for (" := ⟨Tame.literal (by rfl), by decide⟩
    have hsemicolon : Tame "; " := Tame.literal (by rfl)
    have hclose : Tame ") " := Tame.literal (by rfl)
    have htext := (Expr.render_neat r condition hcondition).toTame
    -- the header stays open, whatever its parts write
    obtain ⟨hin, hink⟩ := Stmt.emit_inStep r start .header hstart (h.line hfor)
      fun _ => inked_line e hfor.oneLine ⟨'f', by decide, by decide⟩
    have hin₁ := (hin.inline (hink rfl) hsemicolon).inline ((hink rfl).inline hsemicolon.oneLine) htext
    have hink₁ := ((hink rfl).inline hsemicolon.oneLine).inline htext.oneLine
    obtain ⟨hin₂, hink₂⟩ := Stmt.emit_inStep r step .header hstep (hin₁.inline hink₁ hsemicolon)
      fun _ => hink₁.inline hsemicolon.oneLine
    have hopened := (hin₂.inline (hink₂ rfl) hclose).opened ((hink₂ rfl).inline hclose.oneLine)
    rw [inline_inline] at hopened
    have hended := (emitAll_inStep r body hbody hopened).ended h.nonneg
    rw [Stmt.emit]
    exact ⟨hended.1, fun _ => hended.2⟩
  | .loop condition body, position, e, b, hs, h, hi => by
    obtain ⟨hcondition, hbody⟩ := hs.loop
    have hwhile := h.condition "while (" ⟨Tame.literal (by rfl), by decide⟩ ⟨'w', by decide, by decide⟩
      hcondition
    have hended := (emitAll_inStep r body hbody hwhile).ended h.nonneg
    rw [Stmt.emit]
    exact ⟨hended.1, fun _ => hended.2⟩

/-- Statements keep an emitter in step, one after the other. -/
theorem emitAll_inStep (r : Registry) : ∀ (body : List Stmt) {e : Emitter} {b : Int},
    Block.MadeOf (Expr.IsNeat r) (Stmt.IsNeat r) body → InStep base b e → InStep base b (emitAll r e body)
  | [], e, b, _, h => by
    rw [emitAll]
    exact h
  | s :: rest, e, b, hbody, h => by
    obtain ⟨hs, hrest⟩ := Block.madeOf_cons.mp hbody
    rw [emitAll]
    exact emitAll_inStep r rest hrest (Stmt.emit_inStep r s .line hs h nofun).1

end

/-- The first line of a function. -/
theorem Func.signature_neat {f : Func} (h : f.IsNeat r) : Neat (f.signature r) ∧ HasInk (f.signature r) := by
  -- parameters with commas between them, each a type and a name
  have hparams : Tame (r.renderParams f.params) := by
    refine intercalate_induction (Tame.literal (by rfl)) Tame.append (Tame.literal (by rfl)) fun t ht => ?_
    obtain ⟨p, hp, rfl⟩ := List.mem_map.mp ht
    have htype : Tame (((r.variableAt? p).map (r.spelling ·.type)).getD "") := by
      cases hv : r.variableAt? p with
      | none => exact Tame.literal (by rfl)
      | some v => exact (h.types p hp v hv).toTame
    exact (htype.append (Tame.literal (by rfl))).append (h.params p hp).toTame
  have hblank : Tame " " := Tame.literal (by rfl)
  have hopen : Tame "(" := Tame.literal (by rfl)
  have hclose : Tame ")" := Tame.literal (by rfl)
  have hrest := (((hblank.append h.name.toTame).append hopen).append hparams).append hclose
  have hsignature : f.signature r = r.spelling f.returnType ++
      (" " ++ r.text f.name ++ "(" ++ r.renderParams f.params ++ ")") := by
    simp only [Func.signature, String.append_assoc]
  rw [hsignature]
  exact ⟨h.returnType.toNeat.append_of_ne h.returnType.nonempty hrest, (h.returnType.hasInk.append _).1⟩

/-- What is written in step is laid out by its braces once all of them are closed. -/
theorem Emitter.InStep.laidOutBy (h : InStep base 0 e) : LaidOutBy base e.text := ⟨⟨h.sane, h.total⟩, h.indented⟩

end Statements

/-! ## Texts of their own

On its own a statement is written at level 0, and the statements of a block at level 1, as if they stood in a function. -/

/-- **What is rendered on its own is laid out by its braces**: a statement and a function from level 0 on, a block from
level 1 on.  This holds of all trees over neat names and texts, whatever stands in the headers of their loops. -/
theorem render_laidOutBy (r : Registry) :
    (∀ s : Stmt, s.MadeOf (Expr.IsNeat r) (Stmt.IsNeat r) → LaidOutBy 0 (s.render r)) ∧
      (∀ b : Block, Block.MadeOf (Expr.IsNeat r) (Stmt.IsNeat r) b → LaidOutBy 1 (Block.render r b)) ∧
      ∀ f : Func, f.IsNeat r → LaidOutBy 0 (f.render r) := by
  refine ⟨fun s hs => ?_, fun b hb => ?_, fun f hf => ?_⟩
  · exact (Stmt.emit_inStep r s .line hs (inStep_start 0) nofun).1.laidOutBy
  · exact (emitAll_inStep r b hb (inStep_start 1)).laidOutBy
  · obtain ⟨hsignature, hink⟩ := Func.signature_neat hf
    have hblank : Tame " " := Tame.literal (by rfl)
    have hopened := (inStep_start 0).heading (hsignature.append_of_ne hink.ne hblank) (hink.append _).1
    have hended := (emitAll_inStep r _ hf.body hopened).ended (Int.le_refl 0)
    have hline : (({} : Emitter).line (f.signature r)).inline " \x7b" = ({} : Emitter).line (f.signature r ++ " " ++ "\x7b") := by
      rw [line_inline, String.append_assoc]
      rfl
    rw [Func.render, Func.emit, Block.emit, hline]
    exact hended.1.laidOutBy

/-- A registry with the names of one variable and one function. -/
def shortNames : Registry :=
  (((Registry.withCTypes.declareVariable intType "n").2).declareFunction intType "f" [⟨0⟩]).2

/-- A function with a loop that holds a loop in its header and lines with braces of their own. -/
def knotted : Func where
  returnType := intType
  name := ⟨10⟩
  params := [⟨0⟩]
  body := some [
    .count (.loop (.var ⟨0⟩) [.raw "x = \x7b1\x7d;"]) (.literal "\x7b\x7d") (.result (.call ⟨0⟩ [.int (-1)])) [
      .branch (.var ⟨0⟩) [] (some [.effect (.literal "")])]]

/-- Its names are neat, and it is laid out by its braces. -/
theorem knotted_laidOutBy : knotted.IsNeat shortNames ∧ LaidOutBy 0 (knotted.render shortNames) := by
  have hn : NeatName (shortNames.variableName ⟨0⟩) := ⟨⟨⟨by decide, by decide⟩, by decide⟩, by decide⟩
  have hf : NeatName (shortNames.functionName ⟨0⟩) := ⟨⟨⟨by decide, by decide⟩, by decide⟩, by decide⟩
  have hint : NeatName (shortNames.spelling intType) := ⟨⟨⟨by decide, by decide⟩, by decide⟩, by decide⟩
  -- what occurs in it is listed, and so are its statements
  have hparts : ∀ x ∈ blockParts (knotted.body.getD []), Expr.IsNeat shortNames x := by
    have hlist : blockParts (knotted.body.getD []) =
        [.var ⟨0⟩, .literal "\x7b\x7d", .call ⟨0⟩ [.int (-1)], .int (-1), .var ⟨0⟩, .literal ""] := by
      simp [knotted, blockParts, Stmt.parts, Expr.parts, Expr.partsOfArgs]
    rw [hlist]
    simp only [List.forall_mem_cons]
    exact ⟨hn, ⟨⟨by decide, by decide⟩, by decide⟩, hf, trivial, hn, ⟨⟨by decide, by decide⟩, by decide⟩, List.forall_mem_nil _⟩
  have hsteps : ∀ x ∈ blockSteps (knotted.body.getD []), Stmt.IsNeat shortNames x := by
    simp only [knotted, Option.getD_some, blockSteps, Stmt.steps, List.append_nil, List.cons_append, List.nil_append,
      List.forall_mem_cons]
    exact ⟨trivial, trivial, ⟨⟨by decide, by decide⟩, by decide⟩, trivial, trivial, trivial, List.forall_mem_nil _⟩
  have hknotted : knotted.IsNeat shortNames := by
    refine ⟨hint, hf, ?_, ?_,
      Block.madeOf_iff.mpr ⟨hparts, hsteps⟩⟩
    · intro p hp
      obtain rfl := List.mem_singleton.mp hp
      exact hn
    · intro p hp v hv
      obtain rfl := List.mem_singleton.mp hp
      cases hv
      exact hint
  exact ⟨hknotted, (render_laidOutBy shortNames).2.2 knotted hknotted⟩

end SeedCorpus
