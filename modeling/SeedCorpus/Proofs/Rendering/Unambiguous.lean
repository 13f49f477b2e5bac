/-
  A rendered text says which block it is.

  1. Lines are told apart by their depth: the lines of a block end where a line lies no deeper than the one that opened it
     (`deeper_cut`).  So the lines of a statement are read in one way only, whatever lines follow (`Stmt.lines_cut`); the
     induction is on the statement, and its first line says all of it but its blocks (`Stmt.bare_of_first`).
  2. A text is read as its lines again (`textLines_render`): no end of line stands on them, and no blank in front
     (`Line.Fair`).
  3. So two blocks over distinct names have one text only if they are the same (`render_unambiguous`).
-/
import SeedCorpus.Proofs.Rendering.Headings
import SeedCorpus.Proofs.Rendering.Indentation

namespace SeedCorpus

/-! ## Lines of blocks

Each form of statement with blocks has its own way to put lines around them.  The cutting lemmas below say for each that the
lines in a block, and the lines behind it, are determined. -/

section Blocks

variable {r : Registry} {a b s t : List Line} {x y : String}

/-- The lines of a block end at the first line that is not in it. -/
theorem deeper_cut (h : deeper a ++ (0, x) :: s = deeper b ++ (0, y) :: t) : a = b ∧ x = y ∧ s = t := by
  have hdeep : ∀ ls, ∀ l ∈ deeper ls, decide (0 < l.1) = true := by
    intro ls l hl
    obtain ⟨m, -, rfl⟩ := List.mem_map.mp hl
    exact decide_eq_true (Nat.succ_pos m.1)
  have hflat : ∀ (z : String) (ls : List Line) (l : Line), ((0, z) :: ls).head? = some l → decide (0 < l.1) = false := by
    intro z ls l hl
    obtain rfl := Option.some.inj hl
    rfl
  -- lines in the block lie deeper than 0, and the next one does not: that is where to cut
  obtain ⟨hblock, hrest⟩ := cut_unique (hdeep a) (hdeep b) (hflat x s) (hflat y t) h
  obtain ⟨hline, rfl⟩ := List.cons.inj hrest
  have hinjective : ∀ l m : Line, (l.1 + 1, l.2) = (m.1 + 1, m.2) → l = m := by
    rintro ⟨d, text⟩ ⟨d', text'⟩ he
    obtain ⟨hdepth, rfl⟩ := Prod.mk.inj he
    obtain rfl := Nat.succ.inj hdepth
    rfl
  have hsame := (List.map_inj_right hinjective).mp hblock
  exact ⟨hsame, (Prod.mk.inj hline).2, rfl⟩

/-- The first line of a statement comes first, and the others follow. -/
theorem Stmt.first_cut (hr : r.TellsApart) {p q : Stmt} (hp : p.KnownTo r) (hq : q.KnownTo r)
    (h : p.lines r ++ s = q.lines r ++ t) :
    p.bare = q.bare ∧ (p.lines r).tail ++ s = (q.lines r).tail ++ t := by
  rw [Stmt.lines_eq r p, Stmt.lines_eq r q, List.cons_append, List.cons_append] at h
  obtain ⟨hfirst, htail⟩ := List.cons.inj h
  exact ⟨Stmt.bare_of_first hr hp hq (Prod.mk.inj hfirst).2, htail⟩

/-- Behind the first line of a block stand the lines in it and the closing brace. -/
theorem tail_blockOf (first : String) (a s : List Line) :
    (blockOf first a).tail ++ s = deeper a ++ (0, "\x7d") :: s := by
  simp [blockOf]

/-- Behind the first line of a conditional with an alternative stand two blocks. -/
theorem Stmt.tail_else (r : Registry) (condition : Expr) (body other : Block) (s : List Line) :
    ((Stmt.branch condition body (some other)).lines r).tail ++ s = deeper (blockLines r body) ++
      (0, "\x7d else \x7b") :: (deeper (blockLines r other) ++ (0, "\x7d") :: s) := by
  simp [Stmt.lines, blockOf]

/-- A block is read in one way only up to the brace that closes it. -/
theorem blockOf_cut (h : (blockOf x a).tail ++ s = (blockOf y b).tail ++ t) : a = b ∧ s = t := by
  rw [tail_blockOf, tail_blockOf] at h
  obtain ⟨hblock, -, hrest⟩ := deeper_cut h
  exact ⟨hblock, hrest⟩

/-- A conditional without an alternative is none with one: the line behind the first block tells. -/
theorem Stmt.tail_else_ne {condition : Expr} {body other : Block} :
    ((Stmt.branch condition body (some other)).lines r).tail ++ s ≠ (blockOf y b).tail ++ t := by
  intro h
  rw [Stmt.tail_else, tail_blockOf] at h
  obtain ⟨-, hclose, -⟩ := deeper_cut h
  exact absurd hclose (by decide)

/-- Whether a statement is one line. -/
def Stmt.isLine : Stmt → Bool
  | .branch .. | .count .. | .loop .. => false
  | _ => true

/-- A statement of one line is all that its first line says. -/
theorem Stmt.bare_injective {p q : Stmt} (hp : p.isLine) (h : p.bare = q.bare) : p = q := by
  cases p with
  | branch => cases hp
  | count => cases hp
  | loop => cases hp
  | _ => cases q <;> first | exact h | cases h

/-- A statement of one line is read in one way only. -/
theorem Stmt.line_cut (hr : r.TellsApart) {p q : Stmt} (hline : p.isLine) (hp : p.KnownTo r) (hq : q.KnownTo r)
    (h : p.lines r ++ s = q.lines r ++ t) : p = q ∧ s = t := by
  obtain ⟨hbare, htail⟩ := Stmt.first_cut hr hp hq h
  obtain rfl := Stmt.bare_injective hline hbare
  exact ⟨rfl, List.append_cancel_left htail⟩

mutual

/-- **The lines of a statement are read in one way only**, whatever lines follow. -/
theorem Stmt.lines_cut (hr : r.TellsApart) : ∀ (p q : Stmt) {s t : List Line}, p.KnownTo r → q.KnownTo r →
    p.lines r ++ s = q.lines r ++ t → p = q ∧ s = t
  | .assign target op value, _, _, _, hp, hq, h => Stmt.line_cut hr rfl hp hq h
  | .declare type declarator value, _, _, _, hp, hq, h => Stmt.line_cut hr rfl hp hq h
  | .effect value, _, _, _, hp, hq, h => Stmt.line_cut hr rfl hp hq h
  | .result value, _, _, _, hp, hq, h => Stmt.line_cut hr rfl hp hq h
  | .raw text, _, _, _, hp, hq, h => Stmt.line_cut hr rfl hp hq h
  | .loop condition body, q, s, t, hp, hq, h => by
    obtain ⟨hbare, htail⟩ := Stmt.first_cut hr hp hq h
    cases q with
    | loop condition' body' =>
      -- both are loops, and what stands in front of their blocks is the same
      cases hbare
      obtain ⟨hbody, hrest⟩ := blockOf_cut htail
      obtain rfl := blockLines_injective hr body body' hp.loop.2 hq.loop.2 hbody
      exact ⟨rfl, hrest⟩
    | _ => cases hbare
  | .count start condition step body, q, s, t, hp, hq, h => by
    obtain ⟨hbare, htail⟩ := Stmt.first_cut hr hp hq h
    cases q with
    | count start' condition' step' body' =>
      cases hbare
      obtain ⟨-, -, -, hknown⟩ := hp.count
      obtain ⟨-, -, -, hknown'⟩ := hq.count
      obtain ⟨hbody, hrest⟩ := blockOf_cut htail
      obtain rfl := blockLines_injective hr body body' hknown hknown' hbody
      exact ⟨rfl, hrest⟩
    | _ => cases hbare
  | .branch condition body none, q, s, t, hp, hq, h => by
    obtain ⟨hbare, htail⟩ := Stmt.first_cut hr hp hq h
    cases q with
    | branch condition' body' alternative' =>
      cases hbare
      cases alternative' with
      | none =>
        obtain ⟨hbody, hrest⟩ := blockOf_cut htail
        obtain rfl := blockLines_injective hr body body' hp.whenever.2 hq.whenever.2 hbody
        exact ⟨rfl, hrest⟩
      | some other' => exact absurd htail.symm Stmt.tail_else_ne
    | _ => cases hbare
  | .branch condition body (some other), q, s, t, hp, hq, h => by
    obtain ⟨hbare, htail⟩ := Stmt.first_cut hr hp hq h
    cases q with
    | branch condition' body' alternative' =>
      cases hbare
      cases alternative' with
      | none => exact absurd htail Stmt.tail_else_ne
      | some other' =>
        obtain ⟨-, hknown, hknownOther⟩ := hp.branch
        obtain ⟨-, hknown', hknownOther'⟩ := hq.branch
        rw [Stmt.tail_else, Stmt.tail_else] at htail
        obtain ⟨hbody, -, hbehind⟩ := deeper_cut htail
        obtain ⟨hother, -, hrest⟩ := deeper_cut hbehind
        obtain rfl := blockLines_injective hr body body' hknown hknown' hbody
        obtain rfl := blockLines_injective hr other other' hknownOther hknownOther' hother
        exact ⟨rfl, hrest⟩
    | _ => cases hbare

/-- Lines are those of one block only. -/
theorem blockLines_injective (hr : r.TellsApart) : ∀ (a b : List Stmt), Block.KnownTo r a →
    Block.KnownTo r b → blockLines r a = blockLines r b → a = b
  | [], [], _, _, _ => rfl
  | [], q :: rest', _, _, h => by
    rw [blockLines, blockLines, Stmt.lines_eq] at h
    cases h
  | p :: rest, [], _, _, h => by
    rw [blockLines, blockLines, Stmt.lines_eq] at h
    cases h
  | p :: rest, q :: rest', ha, hb, h => by
    obtain ⟨hp, hrest⟩ := Block.madeOf_cons.mp ha
    obtain ⟨hq, hrest'⟩ := Block.madeOf_cons.mp hb
    obtain ⟨rfl, hlines⟩ := Stmt.lines_cut hr p q hp hq h
    rw [blockLines_injective hr rest rest' hrest hrest' hlines]

end

end Blocks

/-! ## Texts as lines

Printing a line puts blanks in front of it.  They can be counted again if the line itself does not begin with one. -/

/-- A line that can be read again: it is one line, and it does not begin with a blank. -/
structure Line.Fair (l : Line) : Prop where
  /-- No line ends in it. -/
  oneLine : '\n' ∉ l.2.toList
  /-- It does not begin with a blank. -/
  flush : Flush l.2

section Texts

variable {a b : List Line} {l m : Line} {depth : Nat}

/-- A line that is printed says how deep it lies and what stands on it. -/
theorem Line.printed_injective (hl : l.Fair) (hm : m.Fair) (h : l.printed depth = m.printed depth) : l = m := by
  have hblanks : 2 * (depth + l.1) = 2 * (depth + m.1) := by
    rw [← leadingBlanks_indentation (depth + l.1) hl.flush, ← leadingBlanks_indentation (depth + m.1) hm.flush]
    exact congrArg leadingBlanks h
  have hdepth : l.1 = m.1 := by omega
  rw [Line.printed_eq, Line.printed_eq, hdepth] at h
  have htext : l.2 = m.2 := (String.append_right_inj _).mp h
  exact Prod.ext hdepth htext

/-- Lines that are printed alike are the same. -/
theorem lines_of_printed : ∀ {a b : List Line}, (∀ l ∈ a, l.Fair) → (∀ l ∈ b, l.Fair) →
    a.map (Line.printed depth) = b.map (Line.printed depth) → a = b
  | [], [], _, _, _ => rfl
  | l :: a, m :: b, ha, hb, h => by
    obtain ⟨hline, hrest⟩ := List.cons.inj h
    obtain rfl := Line.printed_injective (ha l List.mem_cons_self) (hb m List.mem_cons_self) hline
    obtain rfl := lines_of_printed (fun x hx => ha x (List.mem_cons_of_mem l hx))
      (fun x hx => hb x (List.mem_cons_of_mem l hx)) hrest
    rfl

/-- Lines in a block are read again from the text that they make. -/
theorem textLines_printed (h : ∀ l ∈ a, l.Fair) :
    textLines ("\n".intercalate (a.map (Line.printed (depth + 1)))) = a.map (Line.printed (depth + 1)) := by
  cases a with
  | nil => rfl
  | cons l rest =>
    -- the text of no lines is empty, and so is that of one empty line; lines in a block are never empty
    have hne : "\n".intercalate ((l :: rest).map (Line.printed (depth + 1))) ≠ "" := by
      intro he
      rw [intercalate_newline] at he
      have hindented : Emitter.indentation (depth + 1 + l.1) = "" :=
        (String.append_eq_empty_iff.mp (String.append_eq_empty_iff.mp he).1).1
      have hlength : (Emitter.indentation (depth + 1 + l.1)).toList.length = 0 := by
        rw [hindented]
        rfl
      rw [Emitter.indentation, String.toList_ofList, List.length_replicate] at hlength
      omega
    rw [textLines, if_neg hne]
    refine linesOf_intercalate (by simp) fun s hs => ?_
    obtain ⟨m, hm, rfl⟩ := List.mem_map.mp hs
    rw [Line.printed, String.toList_append, String.toList_ofList, List.mem_append]
    rintro (hblank | htext)
    · exact absurd (List.eq_of_mem_replicate hblank) (by decide)
    · exact (h m hm).oneLine htext

/-- Lines stay fair when they are put into one more block. -/
theorem deeper_fair (h : ∀ l ∈ a, l.Fair) : ∀ l ∈ deeper a, l.Fair := by
  intro l hl
  obtain ⟨m, hm, rfl⟩ := List.mem_map.mp hl
  exact ⟨(h m hm).oneLine, (h m hm).flush⟩

/-- The lines of a block are fair if its first line and those in it are. -/
theorem blockOf_fair {first : String} (hfirst : Line.Fair (0, first)) (h : ∀ l ∈ a, l.Fair) :
    ∀ l ∈ blockOf first a, l.Fair := by
  intro l hl
  rw [blockOf, List.mem_append, List.mem_cons, List.mem_singleton] at hl
  rcases hl with (rfl | hl) | rfl
  · exact hfirst
  · exact deeper_fair h l hl
  · exact ⟨by decide, by decide⟩

end Texts

/-! ## Lines of known statements

Names of C, signs and spellings are fair pieces, and so are the lines that known statements are put together to.  Here the
characters that may stand in names matter again. -/

section Known

variable {r : Registry}

/-- A fixed text is neat if it is tame, not empty and does not begin with a blank. -/
theorem NeatName.literal {s : String} (h : isTame s) (hflush : Flush s) (hne : s ≠ "") : NeatName s :=
  ⟨⟨Tame.literal h, hflush⟩, hne⟩

theorem Expr.isNeat_of_isKnown (hr : r.TellsApart) (e : Expr) (h : e.IsKnown r) : e.IsNeat r := by
  cases e with
  | var v => exact (hr.variableName v h).neat
  | element base at_ => exact (hr.variableName base h).neat
  | int value => trivial
  | literal text => exact h.elim
  | binary lhs op rhs =>
    have hsigns : ∀ p ∈ Registry.cSigns, isTame p.2 = true ∧ Flush p.2 ∧ p.2 ≠ "" := by decide
    obtain ⟨htame, hflush, hne⟩ := hsigns _ (hr.sign op h)
    exact NeatName.literal htame hflush hne
  | call callee args => exact (hr.functionName callee (Expr.Suits.isFunction h)).neat

theorem Stmt.isNeat_of_isKnown (hr : r.TellsApart) (s : Stmt) (h : s.IsKnown r) : s.IsNeat r := by
  cases s with
  | assign target op value =>
    intro o ho
    -- the sign is known as that of an expression
    exact Expr.isNeat_of_isKnown hr (.binary (.int 0) o (.int 0)) (h o ho)
  | declare type declarator value =>
    have hspellings : ∀ p ∈ Registry.cSpellings, isTame p.2 = true ∧ Flush p.2 ∧ p.2 ≠ "" := by decide
    obtain ⟨htame, hflush, hne⟩ := hspellings _ (hr.spelling type h.1)
    exact ⟨NeatName.literal htame hflush hne, (hr.variableName _ h.2).neat⟩
  | raw text => exact h.elim
  | _ => trivial

/-- What stands in a header for a simple statement is a piece with which a line can begin. -/
theorem Stmt.headerText_neat (hr : r.TellsApart) {s : Stmt} (hs : s.KnownTo r)
    (hsimple : s.isSimple) : Neat (s.headerText r) := by
  have hneat := hs.mono (Expr.isNeat_of_isKnown hr) (Stmt.isNeat_of_isKnown hr)
  cases s with
  | assign target op value => exact Stmt.assignText_neat hneat
  | declare type declarator value => exact Stmt.declareText_neat hneat
  | effect value => exact Expr.render_neat r value hneat.effect
  | raw text => exact hs.self.elim
  | _ => cases hsimple

/-- The first line of a statement is fair: its pieces are, and it begins with a piece that does not begin with a blank. -/
theorem Stmt.first_fair (hr : r.TellsApart) {s : Stmt} (hs : s.KnownTo r) :
    Line.Fair (0, s.first r) := by
  have hneat := hs.mono (Expr.isNeat_of_isKnown hr) (Stmt.isNeat_of_isKnown hr)
  have hsemicolon : Neat ";" := ⟨Tame.literal (by rfl), by decide⟩
  -- a front that is neat, and whatever stands behind it on the line
  have hfair : ∀ {front back : String}, Neat front → front ≠ "" → '\n' ∉ back.toList → Line.Fair (0, front ++ back) := by
    intro front back hfront hne hback
    refine ⟨?_, hfront.flush.append_of_ne hne back⟩
    rw [String.toList_append, List.mem_append]
    exact not_or.mpr ⟨hfront.oneLine, hback⟩
  have hheading : ∀ {keyword : String} {e : Expr}, Neat keyword → keyword ≠ "" → e.All (Expr.IsNeat r) →
      Line.Fair (0, keyword ++ e.render r ++ ") \x7b") := by
    intro keyword e hkeyword hne he
    refine hfair (hkeyword.append_of_ne hne (Expr.render_neat r e he).toTame) ?_ (by decide)
    exact fun hempty => hne (String.append_eq_empty_iff.mp hempty).1
  -- one line, or a heading in front of a block
  cases s with
  | assign target op value =>
    have hline := (Stmt.assignText_neat hneat).append hsemicolon
    exact ⟨hline.oneLine, hline.flush⟩
  | declare type declarator value =>
    have hline := (Stmt.declareText_neat hneat).append hsemicolon
    exact ⟨hline.oneLine, hline.flush⟩
  | effect value =>
    have hline := (Expr.render_neat r value hneat.effect).append hsemicolon
    exact ⟨hline.oneLine, hline.flush⟩
  | raw text => exact hs.self.elim
  | result value =>
    have hreturn : Neat "return " := ⟨Tame.literal (by rfl), by decide⟩
    have hline := (hreturn.append (Expr.render_neat r value hneat.result)).append hsemicolon
    exact ⟨hline.oneLine, hline.flush⟩
  | branch condition body alternative =>
    exact hheading ⟨Tame.literal (by rfl), by decide⟩ (by decide) hneat.branchCondition
  | loop condition body => exact hheading ⟨Tame.literal (by rfl), by decide⟩ (by decide) hneat.loop.1
  | count start condition step body =>
    obtain ⟨hstart, -, hstep, -⟩ := hs.count
    have hfor : Neat "for (" := ⟨Tame.literal (by rfl), by decide⟩
    have hgap : Tame "; " := Tame.literal (by rfl)
    have hparts := ((((Stmt.headerText_neat hr hstart hs.self.1).toTame.append hgap).append
      (Expr.render_neat r condition hneat.count.2.1).toTame).append hgap).append
      (Stmt.headerText_neat hr hstep hs.self.2).toTame
    have hline : Line.Fair (0, "for (" ++
        (start.headerText r ++ "; " ++ condition.render r ++ "; " ++ step.headerText r) ++ ") \x7b") := by
      refine hfair (hfor.append_of_ne (by decide) hparts) ?_ (by decide)
      exact fun he => absurd (String.append_eq_empty_iff.mp he).1 (by decide)
    simpa only [Stmt.first, String.append_assoc] using hline

mutual

/-- The lines of a statement are fair. -/
theorem Stmt.lines_fair (hr : r.TellsApart) : ∀ s : Stmt, s.KnownTo r →
    ∀ l ∈ s.lines r, l.Fair
  | .assign target op value, hs => List.forall_mem_singleton.mpr (Stmt.first_fair hr hs)
  | .declare type declarator value, hs => List.forall_mem_singleton.mpr (Stmt.first_fair hr hs)
  | .effect value, hs => List.forall_mem_singleton.mpr (Stmt.first_fair hr hs)
  | .raw text, hs => List.forall_mem_singleton.mpr (Stmt.first_fair hr hs)
  | .result value, hs => List.forall_mem_singleton.mpr (Stmt.first_fair hr hs)
  | .branch condition body none, hs => blockOf_fair (Stmt.first_fair hr hs) (blockLines_fair hr body hs.whenever.2)
  | .branch condition body (some other), hs => by
    obtain ⟨-, hbody, hother⟩ := hs.branch
    have helse : Line.Fair (0, "\x7d else \x7b") := ⟨by decide, by decide⟩
    intro l hl
    rw [Stmt.lines, List.mem_append, List.mem_cons] at hl
    rcases hl with (rfl | hl) | hl
    · exact Stmt.first_fair hr hs
    · exact deeper_fair (blockLines_fair hr body hbody) l hl
    · exact blockOf_fair helse (blockLines_fair hr other hother) l hl
  | .count start condition step body, hs =>
    blockOf_fair (Stmt.first_fair hr hs) (blockLines_fair hr body hs.count.2.2.2)
  | .loop condition body, hs => blockOf_fair (Stmt.first_fair hr hs) (blockLines_fair hr body hs.loop.2)

/-- The lines of a block are fair. -/
theorem blockLines_fair (hr : r.TellsApart) : ∀ b : List Stmt, Block.KnownTo r b →
    ∀ l ∈ blockLines r b, l.Fair
  | [], _ => nofun
  | s :: rest, hb => by
    obtain ⟨hs, hrest⟩ := Block.madeOf_cons.mp hb
    rw [blockLines]
    exact List.forall_mem_append.mpr ⟨Stmt.lines_fair hr s hs, blockLines_fair hr rest hrest⟩

end

mutual

/-- In the headers of a known statement stand simple statements. -/
theorem Stmt.isHeaded_of_isKnown : ∀ s : Stmt, s.KnownTo r → s.isHeaded
  | .assign target op value, _ => rfl
  | .declare type declarator value, _ => rfl
  | .effect value, _ => rfl
  | .raw text, _ => rfl
  | .result value, _ => rfl
  | .branch condition body none, hs => allHeaded_of_isKnown body hs.whenever.2
  | .branch condition body (some other), hs => by
    obtain ⟨-, hbody, hother⟩ := hs.branch
    rw [Stmt.isHeaded, allHeaded_of_isKnown body hbody, allHeaded_of_isKnown other hother]
    rfl
  | .count start condition step body, hs => by
    obtain ⟨hstart, hstep⟩ := hs.self
    rw [Stmt.isHeaded, hstart, hstep, allHeaded_of_isKnown body hs.count.2.2.2]
    rfl
  | .loop condition body, hs => allHeaded_of_isKnown body hs.loop.2

/-- In the headers of a known block stand simple statements. -/
theorem allHeaded_of_isKnown : ∀ b : List Stmt, Block.KnownTo r b → allHeaded b
  | [], _ => rfl
  | s :: rest, hb => by
    obtain ⟨hs, hrest⟩ := Block.madeOf_cons.mp hb
    rw [allHeaded, Stmt.isHeaded_of_isKnown s hs, allHeaded_of_isKnown rest hrest]
    rfl

end

/-- The text of a known block is read as its lines. -/
theorem textLines_render (hr : r.TellsApart) {b : Block} (hb : Block.KnownTo r b) :
    textLines (Block.render r b) = (blockLines r b).map (Line.printed 1) := by
  rw [Block.render_eq r b (allHeaded_of_isKnown b hb)]
  exact textLines_printed (blockLines_fair hr b hb)

end Known

/-! ## Rendering is unambiguous -/

open SeedCorpus.Registry

/-- **A rendered text says which block it is.**  Variables with distinct names of C are declared, and functions with distinct
names of C, in whatever order.  Two blocks over what is declared and registered, without texts that are printed as they
stand, then have one text only if they are the same. -/
theorem render_unambiguous {history : List Act} (h : NamesApart history) {b b' : Block}
    (hb : Block.KnownTo (withCTypes.after history) b) (hb' : Block.KnownTo (withCTypes.after history) b') :
    Block.render (withCTypes.after history) b = Block.render (withCTypes.after history) b' ↔ b = b' := by
  constructor
  · intro htext
    have hr := tellsApart_of_namesApart h
    have hprinted := congrArg textLines htext
    rw [textLines_render hr hb, textLines_render hr hb'] at hprinted
    have hlines := lines_of_printed (blockLines_fair hr b hb) (blockLines_fair hr b' hb') hprinted
    exact blockLines_injective hr b b' hb hb' hlines
  · rintro rfl
    rfl

/-- A variable and a function of one name. -/
def oneName : List Act := [.declareVariable intType "f", .declareFunction intType "f" [⟨0⟩]]

/-- A conditional in a conditional, and an alternative for the one inside. -/
def elseInside : Block := [.branch (.var ⟨0⟩) [.branch (.call ⟨0⟩ [.var ⟨0⟩]) [] (some [])] none]

/-- A conditional in a conditional, and an alternative for the one outside. -/
def elseOutside : Block := [.branch (.var ⟨0⟩) [.branch (.call ⟨0⟩ [.var ⟨0⟩]) [] none] (some [])]

/-- An alternative of the conditional inside and one of the conditional outside are told apart by the depth of the line with
`else`, though a variable and a function have one name. -/
theorem elseInside_ne_elseOutside : NamesApart oneName ∧ Block.KnownTo (withCTypes.after oneName) elseInside ∧
    Block.KnownTo (withCTypes.after oneName) elseOutside ∧
      Block.render (withCTypes.after oneName) elseInside ≠ Block.render (withCTypes.after oneName) elseOutside := by
  have hnames : NamesApart oneName := ⟨by decide, by decide, by decide, by decide⟩
  have hv : IsVariable (withCTypes.after oneName) ⟨0⟩ := by rfl
  have hcall : (Expr.call ⟨0⟩ [.var ⟨0⟩]).Suits (withCTypes.after oneName) := ⟨_, rfl, rfl⟩
  have hparts : ∀ x ∈ [Expr.var ⟨0⟩, .call ⟨0⟩ [.var ⟨0⟩], .var ⟨0⟩], Expr.IsKnown (withCTypes.after oneName) x := by
    simp only [List.forall_mem_cons]
    exact ⟨hv, hcall, hv, List.forall_mem_nil _⟩
  have hinside : Block.KnownTo (withCTypes.after oneName) elseInside := by
    refine Block.madeOf_iff.mpr ⟨?_, ?_⟩
    · simpa [elseInside, blockParts, Stmt.parts, Expr.parts, Expr.partsOfArgs] using hparts
    · simp only [elseInside, blockSteps, Stmt.steps, List.append_nil, List.forall_mem_cons]
      exact ⟨trivial, trivial, List.forall_mem_nil _⟩
  have houtside : Block.KnownTo (withCTypes.after oneName) elseOutside := by
    refine Block.madeOf_iff.mpr ⟨?_, ?_⟩
    · simpa [elseOutside, blockParts, Stmt.parts, Expr.parts, Expr.partsOfArgs] using hparts
    · simp only [elseOutside, blockSteps, Stmt.steps, List.append_nil, List.forall_mem_cons]
      exact ⟨trivial, trivial, List.forall_mem_nil _⟩
  refine ⟨hnames, hinside, houtside, fun htext => ?_⟩
  have hsame := (render_unambiguous hnames hinside houtside).mp htext
  cases hsame

end SeedCorpus
