/-
  Pieces of a program with their braces.

  The pieces of a program are `Tame`, that is balanced and on one line, and the pieces with which a line begins do not begin
  with a blank either (`Neat`).  Pieces stay so when they are put together, and an expression over such pieces is such a
  piece (`Expr.render_neat`).

  What a piece begins with matters since the blanks in front of a line are counted as its indentation.  An empty piece has
  nothing in front, so a piece that is followed by another one must not be empty (`Neat.append_of_ne`, `NeatName`).
-/
import SeedCorpus.Proofs.Rendering.Texts
import SeedCorpus.Proofs.Syntax.Parts
import SeedCorpus.Proofs.Text.Balance

namespace SeedCorpus

/-! ## Pieces of a line

Three properties, each with what it takes to put two pieces together. -/

/-- A balanced piece of a line. -/
structure Tame (s : String) : Prop where
  /-- No line ends in it. -/
  oneLine : '\n' ∉ s.toList
  /-- Its braces match. -/
  balanced : Balanced s.toList

/-- A text does not begin with a blank. -/
def Flush (s : String) : Prop := s.toList.head? ≠ some ' '

instance (s : String) : Decidable (Flush s) := inferInstanceAs (Decidable (s.toList.head? ≠ some ' '))

/-- A piece with which a line can begin. -/
structure Neat (s : String) : Prop extends Tame s where
  /-- It does not begin with a blank. -/
  flush : Flush s

/-- Whether no brace and no end of line occurs in a text. -/
def isTame (s : String) : Bool := s.toList.all fun c => c ≠ '{' && c ≠ '}' && c ≠ '\n'

section Pieces

variable {s t : String}

/-- A fixed text without braces is tame; whether it is can be computed. -/
theorem Tame.literal (h : isTame s) : Tame s := by
  have hchars : ∀ c ∈ s.toList, (c ≠ '{' ∧ c ≠ '}') ∧ c ≠ '\n' := by
    intro c hc
    have hall := List.all_eq_true.mp h c hc
    simpa using hall
  exact ⟨fun hm => (hchars _ hm).2 rfl, balanced_of_no_brace fun c hc => (hchars c hc).1⟩

/-- Two tame pieces one after the other. -/
theorem Tame.append (hs : Tame s) (ht : Tame t) : Tame (s ++ t) where
  oneLine := by
    rw [String.toList_append, List.mem_append]
    exact not_or.mpr ⟨hs.oneLine, ht.oneLine⟩
  balanced := by
    rw [String.toList_append]
    exact hs.balanced.append ht.balanced

/-- A tame piece stays tame between two fixed ones. -/
theorem Tame.between {front back : String} (hs : Tame s) (h : isTame front && isTame back) :
    Tame (front ++ s ++ back) := by
  rw [Bool.and_eq_true] at h
  exact ((Tame.literal h.1).append hs).append (Tame.literal h.2)

theorem Flush.append (hs : Flush s) (ht : Flush t) : Flush (s ++ t) := by
  rw [Flush, String.toList_append]
  cases hl : s.toList with
  | nil => exact ht
  | cons c rest =>
    rw [Flush, hl] at hs
    exact hs

/-- What stands behind a piece that is not empty does not matter. -/
theorem Flush.append_of_ne (hs : Flush s) (hne : s ≠ "") (t : String) : Flush (s ++ t) := by
  rw [Flush, String.toList_append]
  cases hl : s.toList with
  | nil => exact absurd (String.toList_eq_nil_iff.mp hl) hne
  | cons c rest =>
    rw [Flush, hl] at hs
    exact hs

theorem Neat.append (hs : Neat s) (ht : Neat t) : Neat (s ++ t) :=
  ⟨hs.toTame.append ht.toTame, hs.flush.append ht.flush⟩

/-- A neat piece that is not empty, and any tame one behind it. -/
theorem Neat.append_of_ne (hs : Neat s) (hne : s ≠ "") (ht : Tame t) : Neat (s ++ t) :=
  ⟨hs.toTame.append ht, hs.flush.append_of_ne hne t⟩

/-- The characters of an integer are digits, but for the sign. -/
theorem mem_toString_int {n : Int} {c : Char} (hc : c ∈ (toString n).toList) : c = '-' ∨ c.isDigit = true := by
  cases n with
  | ofNat m => exact Or.inr (isDigit_of_mem_toString hc)
  | negSucc m =>
    have hsign : (toString (Int.negSucc m)).toList = '-' :: (toString (m + 1)).toList := by
      show ("-" ++ toString (m + 1)).toList = _
      rw [String.toList_append]
      rfl
    rw [hsign, List.mem_cons] at hc
    exact hc.imp id isDigit_of_mem_toString

/-- A number is neat, with its sign or without. -/
theorem Neat.int (n : Int) : Neat (toString n) := by
  have hne : ∀ d : Char, d ≠ '-' → d.isDigit = false → d ∉ (toString n).toList := by
    intro d hsign hdigit hm
    rcases mem_toString_int hm with he | hd
    · exact hsign he
    · rw [hdigit] at hd
      cases hd
  -- neither a line end, nor a brace, nor a blank is a digit or the sign
  refine ⟨⟨hne '\n' (by decide) (by decide), balanced_of_no_brace fun c hc => ⟨?_, ?_⟩⟩, fun hhead => ?_⟩
  · rintro rfl
    exact hne '{' (by decide) (by decide) hc
  · rintro rfl
    exact hne '}' (by decide) (by decide) hc
  · exact hne ' ' (by decide) (by decide) (List.mem_of_mem_head? hhead)

/-- Semicolons taken from the end do not make a piece less tame. -/
theorem Tame.withoutSemicolons (h : Tame s) : Tame (withoutSemicolons s) := by
  -- what is left is the front of the text
  have hsplit : s.toList = (SeedCorpus.withoutSemicolons s).toList ++ (s.toList.reverse.takeWhile (· = ';')).reverse := by
    rw [SeedCorpus.withoutSemicolons, String.toList_ofList, ← List.reverse_append, List.takeWhile_append_dropWhile,
      List.reverse_reverse]
  have hback : ∀ c ∈ (s.toList.reverse.takeWhile (· = ';')).reverse, c ≠ '{' ∧ c ≠ '}' := by
    intro c hc
    have hsemicolon : c = ';' := by simpa using List.all_eq_true.mp List.all_takeWhile c (List.mem_reverse.mp hc)
    rw [hsemicolon]
    decide
  have hline := h.oneLine
  have hbalanced := h.balanced
  rw [hsplit] at hline hbalanced
  exact ⟨fun hm => hline (List.mem_append_left _ hm), hbalanced.of_append hback⟩

end Pieces

/-! ## Expressions

The two lemmas go along the two functions that render, as arguments hold expressions.  Each case puts the pieces together in
the order in which they are written. -/

/-- A name that can stand anywhere in a line. -/
structure NeatName (s : String) : Prop extends Neat s where
  /-- There is a name. -/
  nonempty : s ≠ ""

/-- The names and texts with which an expression begins or is put together are neat. -/
def Expr.IsNeat (r : Registry) : Expr → Prop
  | .var v => NeatName (r.variableName v)
  | .element base _ => NeatName (r.variableName base)
  | .int _ => True
  | .literal text => Neat text
  | .binary _ op _ => NeatName (r.text op.sign)
  | .call callee _ => NeatName (r.functionName callee)

mutual

/-- An expression over neat names and texts is neat. -/
theorem Expr.render_neat (r : Registry) : ∀ e : Expr, e.All (Expr.IsNeat r) → Neat (e.render r)
  | .var v, h => by
    have hname : NeatName (r.variableName v) := h.self
    exact hname.toNeat
  | .element base at_, h => by
    obtain ⟨hname, hat⟩ := Expr.all_element.mp h
    have hbase : NeatName (r.variableName base) := hname
    have hindex : Tame ("[" ++ at_.render r ++ "]") := (Expr.render_neat r at_ hat).toTame.between (by rfl)
    -- the name is not empty, so the line begins with it, and what comes behind need only be tame
    have hall := hbase.toNeat.append_of_ne hbase.nonempty hindex
    simpa only [Expr.render, String.append_assoc] using hall
  | .int value, _ => Neat.int value
  | .literal text, h => h.self
  | .binary lhs op rhs, h => by
    obtain ⟨hname, hlhs, hrhs⟩ := Expr.all_binary.mp h
    have hsign : NeatName (r.text op.sign) := hname
    have hl := (Expr.render_neat r lhs hlhs).toTame
    have hr := (Expr.render_neat r rhs hrhs).toTame
    have hblank : Tame " " := Tame.literal (by rfl)
    have hclose : Tame ")" := Tame.literal (by rfl)
    have hopen : Neat "(" := ⟨Tame.literal (by rfl), by decide⟩
    have hinner := ((((hl.append hblank).append hsign.toTame).append hblank).append hr).append hclose
    have hall := hopen.append_of_ne (by decide) hinner
    simpa only [Expr.render, String.append_assoc] using hall
  | .call callee args, h => by
    obtain ⟨hname, hargs⟩ := Expr.all_call.mp h
    have hcallee : NeatName (r.functionName callee) := hname
    have hinner : Tame ("(" ++ Expr.renderArgs r args ++ ")") := (Expr.renderArgs_tame r args hargs).between (by rfl)
    have hall := hcallee.toNeat.append_of_ne hcallee.nonempty hinner
    simpa only [Expr.render, String.append_assoc] using hall

/-- Arguments over neat names and texts are tame. -/
theorem Expr.renderArgs_tame (r : Registry) : ∀ args : List Expr, (∀ x ∈ args, x.All (Expr.IsNeat r)) →
    Tame (Expr.renderArgs r args)
  | [], _ => Tame.literal (by rfl)
  | [e], h => (Expr.render_neat r e (h e List.mem_cons_self)).toTame
  | e :: f :: rest, h => by
    have he := (Expr.render_neat r e (h e List.mem_cons_self)).toTame
    have hrest := Expr.renderArgs_tame r (f :: rest) fun x hx => h x (List.mem_cons_of_mem e hx)
    exact (he.append (Tame.literal (by rfl))).append hrest

end

end SeedCorpus
