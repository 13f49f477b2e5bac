/-
  Statements as lines.

  A `Line` says how many blocks it lies in and what stands on it.  `Stmt.lines` reads a statement as lines without an
  emitter; `Stmt.emit_eq` says that the emitter opens a new line with the first of them and writes the others below, each
  indented by the depth of the emitter and its own.  So a function is its first line, the lines of its body one level
  deeper, and a closing brace (`Func.render_eq`), and a block is its lines, one level deep (`Block.render_eq`).

  In the header of a counting loop only simple statements stand on one line (`Stmt.isSimple`); the lines of others are not
  read here, and generated programs have none (`Stmt.isHeaded`).
-/
import SeedCorpus.Syntax.Rendering

namespace SeedCorpus

/-! ## Lines -/

/-- A line: in how many blocks it lies, and what stands on it. -/
abbrev Line := Nat × String

/-- The text of a line, indented from a depth on. -/
def Line.printed (depth : Nat) (l : Line) : String := String.ofList (List.replicate (2 * (depth + l.1)) ' ') ++ l.2

/-- The blanks in front of a line are those that an emitter puts there. -/
theorem Line.printed_eq (depth : Nat) (l : Line) : l.printed depth = Emitter.indentation (depth + l.1) ++ l.2 := rfl

/-- Lines in one more block. -/
def deeper (ls : List Line) : List Line := ls.map fun l => (l.1 + 1, l.2)

/-- Lines between the line that opens a block and the one that closes it. -/
def blockOf (first : String) (body : List Line) : List Line := (0, first) :: deeper body ++ [(0, "\x7d")]

/-! ## Reading statements -/

/-- Whether a statement stands on one line of a header. -/
def Stmt.isSimple : Stmt → Bool
  | .assign .. | .declare .. | .effect _ | .raw _ => true
  | _ => false

/-- What stands in a header for a simple statement. -/
def Stmt.headerText (r : Registry) : Stmt → String
  | .assign target op value => Stmt.assignText r target op value
  | .declare type declarator value => Stmt.declareText r type declarator value
  | .effect value => value.render r
  | .raw text => withoutSemicolons text
  | _ => ""

mutual

/-- Whether the headers of all counting loops hold simple statements. -/
def Stmt.isHeaded : Stmt → Bool
  | .branch _ body none => allHeaded body
  | .branch _ body (some other) => allHeaded body && allHeaded other
  | .count start _ step body => start.isSimple && step.isSimple && allHeaded body
  | .loop _ body => allHeaded body
  | _ => true

/-- Whether the headers of all counting loops in a block hold simple statements. -/
def allHeaded : List Stmt → Bool
  | [] => true
  | s :: rest => s.isHeaded && allHeaded rest

end

mutual

/-- The lines of a statement. -/
def Stmt.lines (r : Registry) : Stmt → List Line
  | .assign target op value => [(0, Stmt.assignText r target op value ++ ";")]
  | .declare type declarator value => [(0, Stmt.declareText r type declarator value ++ ";")]
  | .effect value => [(0, value.render r ++ ";")]
  | .raw text => [(0, text)]
  | .result value => [(0, "return " ++ value.render r ++ ";")]
  | .branch condition body none => blockOf ("if (" ++ condition.render r ++ ") \x7b") (blockLines r body)
  | .branch condition body (some other) =>
    (0, "if (" ++ condition.render r ++ ") \x7b") :: deeper (blockLines r body)
      ++ blockOf "\x7d else \x7b" (blockLines r other)
  | .count start condition step body =>
    blockOf ("for (" ++ start.headerText r ++ "; " ++ condition.render r ++ "; " ++ step.headerText r ++ ") \x7b")
      (blockLines r body)
  | .loop condition body => blockOf ("while (" ++ condition.render r ++ ") \x7b") (blockLines r body)

/-- The lines of a block. -/
def blockLines (r : Registry) : List Stmt → List Line
  | [] => []
  | s :: rest => s.lines r ++ blockLines r rest

end

/-- The first line of a statement. -/
def Stmt.first (r : Registry) : Stmt → String
  | .assign target op value => Stmt.assignText r target op value ++ ";"
  | .declare type declarator value => Stmt.declareText r type declarator value ++ ";"
  | .effect value => value.render r ++ ";"
  | .raw text => text
  | .result value => "return " ++ value.render r ++ ";"
  | .branch condition _ _ => "if (" ++ condition.render r ++ ") \x7b"
  | .count start condition step _ =>
    "for (" ++ start.headerText r ++ "; " ++ condition.render r ++ "; " ++ step.headerText r ++ ") \x7b"
  | .loop condition _ => "while (" ++ condition.render r ++ ") \x7b"

/-- A statement begins with its first line. -/
theorem Stmt.lines_eq (r : Registry) (s : Stmt) : s.lines r = (0, s.first r) :: (s.lines r).tail := by
  cases s with
  | branch condition body alternative => cases alternative <;> rfl
  | _ => rfl

/-- The lines of a function. -/
def Func.lines (r : Registry) (f : Func) : List Line := blockOf (f.signature r ++ " \x7b") (blockLines r (f.body.getD []))

/-! ## Writing lines

`Emitter.below` is the only way in which lines are put behind others, so each way of writing is brought to it: a new line,
the lines of a block, and the brace that closes one.  It answers an emitter and no text, since what comes next depends on
whether something is written and on how deep it is. -/

namespace Emitter

/-- The emitter with lines written below what it has written. -/
def below (e : Emitter) (ls : List Line) : Emitter :=
  { e with text := e.text ++ String.join (ls.map fun l => "\n" ++ l.printed e.depth) }

variable {e : Emitter} {ls ms : List Line} {s text : String}

theorem below_nil (e : Emitter) : e.below [] = e := by
  simp [below, String.join_nil]

/-- Lines below lines are the lines of both. -/
theorem below_append (e : Emitter) (ls ms : List Line) : (e.below ls).below ms = e.below (ls ++ ms) := by
  simp [below, String.join_append, String.append_assoc]

theorem below_text_ne (h : e.text ≠ "") (ls : List Line) : (e.below ls).text ≠ "" := by
  intro he
  exact h (String.append_eq_empty_iff.mp he).1

theorem below_cons_text_ne (e : Emitter) (l : Line) (ls : List Line) : (e.below (l :: ls)).text ≠ "" := by
  intro he
  have hjoin := (String.append_eq_empty_iff.mp he).2
  simp [String.join_cons] at hjoin

/-- A new line below what is written. -/
theorem line_eq (h : e.text ≠ "") (s : String) : e.line s = e.below [(0, s)] := by
  have hempty : e.text.isEmpty = false := String.isEmpty_eq_false_iff.mpr h
  simp [line, below, Line.printed_eq, hempty, String.join_cons, String.join_nil, String.append_assoc]

/-- A line that is continued. -/
theorem line_inline (e : Emitter) (s text : String) : (e.line s).inline text = e.line (s ++ text) := by
  simp [line, inline, String.append_assoc]

/-- Lines of a block. -/
theorem enter_below_exit (e : Emitter) (ls : List Line) : (e.enter.below ls).exit = e.below (deeper ls) := by
  have hprinted : ∀ l : Line, Line.printed (e.depth + 1) l = Line.printed e.depth (l.1 + 1, l.2) := fun l => by
    simp only [Line.printed, Nat.add_assoc, Nat.add_comm 1]
  simp only [enter, exit, below, deeper, List.map_map, Nat.add_sub_cancel, hprinted]
  rfl

/-- Lines of a block and the line that closes it: they are deeper, and it is not. -/
theorem close_eq (h : e.text ≠ "") (ls : List Line) :
    (e.enter.below ls).exit.line "\x7d" = e.below (deeper ls ++ [(0, "\x7d")]) := by
  rw [enter_below_exit, line_eq (below_text_ne h _), below_append]

end Emitter

/-! ## Statements write their lines -/

/-- In a header a simple statement is put behind what is written, without a line of its own. -/
theorem Stmt.emit_header {s : Stmt} (h : s.isSimple) (r : Registry) (e : Emitter) :
    s.emit r .header e = e.inline (s.headerText r) := by
  cases s <;> first | rfl | cases h

mutual

/-- A statement opens a new line and writes its other lines below, whether or not something is written before it. -/
theorem Stmt.emit_eq (r : Registry) : ∀ (s : Stmt) {e : Emitter}, s.isHeaded → (e.line (s.first r)).text ≠ "" →
    s.emit r .line e = (e.line (s.first r)).below (s.lines r).tail
  | .assign target op value, e, _, _ => by
    rw [Stmt.emit, Emitter.simple, Emitter.line_inline, Emitter.line_inline, String.empty_append]
    exact (Emitter.below_nil _).symm
  | .declare type declarator value, e, _, _ => by
    rw [Stmt.emit, Emitter.simple, Emitter.line_inline, Emitter.line_inline, String.empty_append]
    exact (Emitter.below_nil _).symm
  | .effect value, e, _, _ => by
    rw [Stmt.emit, Emitter.simple, Emitter.line_inline, Emitter.line_inline, String.empty_append]
    exact (Emitter.below_nil _).symm
  | .raw text, e, _, _ => by
    rw [Stmt.emit]
    exact (Emitter.below_nil _).symm
  | .result value, e, _, _ => by
    rw [Stmt.emit, Emitter.line_inline, Emitter.line_inline]
    exact (Emitter.below_nil _).symm
  | .branch condition body none, e, hs, he => by
    have hbody := emitAll_eq r body (e := (e.line ("if (" ++ condition.render r ++ ") \x7b")).enter) hs he
    simp only [Stmt.emit, Emitter.line_inline]
    rw [hbody]
    exact Emitter.close_eq he _
  | .branch condition body (some other), e, hs, he => by
    -- the second block is entered behind `else`, so something is written before it as well
    have hs' : allHeaded body ∧ allHeaded other := by
      simpa only [Stmt.isHeaded, Bool.and_eq_true] using hs
    have hne : (e.line ("if (" ++ condition.render r ++ ") \x7b")).text ≠ "" := he
    have hturned := Emitter.below_text_ne hne (deeper (blockLines r body) ++ [(0, "\x7d else \x7b")])
    have hbody := emitAll_eq r body (e := (e.line ("if (" ++ condition.render r ++ ") \x7b")).enter) hs'.1 hne
    have hother := emitAll_eq r other (e := ((e.line ("if (" ++ condition.render r ++ ") \x7b")).below
      (deeper (blockLines r body) ++ [(0, "\x7d else \x7b")])).enter) hs'.2 hturned
    simp only [Stmt.emit, Emitter.line_inline]
    rw [hbody, Emitter.enter_below_exit, Emitter.line_eq (Emitter.below_text_ne hne _), Emitter.below_append, hother,
      Emitter.close_eq hturned, Emitter.below_append]
    simp [Stmt.lines, Stmt.first, blockOf]
  | .count start condition step body, e, hs, he => by
    have hs' : (start.isSimple ∧ step.isSimple) ∧ allHeaded body := by
      simpa only [Stmt.isHeaded, Bool.and_eq_true] using hs
    have hbody := emitAll_eq r body (e := (e.line ("for (" ++ start.headerText r ++ "; " ++ condition.render r ++ "; "
      ++ step.headerText r ++ ") \x7b")).enter) hs'.2 he
    simp only [Stmt.emit, Emitter.line_inline, Stmt.emit_header hs'.1.1, Stmt.emit_header hs'.1.2]
    rw [hbody]
    exact Emitter.close_eq he _
  | .loop condition body, e, hs, he => by
    have hbody := emitAll_eq r body (e := (e.line ("while (" ++ condition.render r ++ ") \x7b")).enter) hs he
    simp only [Stmt.emit, Emitter.line_inline]
    rw [hbody]
    exact Emitter.close_eq he _

/-- Statements write their lines one after the other below what is written. -/
theorem emitAll_eq (r : Registry) : ∀ (b : List Stmt) {e : Emitter}, allHeaded b → e.text ≠ "" →
    emitAll r e b = e.below (blockLines r b)
  | [], e, _, _ => (Emitter.below_nil e).symm
  | s :: rest, e, hb, he => by
    have hs : s.isHeaded ∧ allHeaded rest := by
      simpa only [allHeaded, Bool.and_eq_true] using hb
    have hfirst : e.line (s.first r) = e.below [(0, s.first r)] := Emitter.line_eq he _
    have hne : (e.line (s.first r)).text ≠ "" := by
      rw [hfirst]
      exact Emitter.below_cons_text_ne e _ _
    rw [emitAll, Stmt.emit_eq r s hs.1 hne, emitAll_eq r rest hs.2 (Emitter.below_text_ne hne _), Emitter.below_append,
      hfirst, Emitter.below_append, blockLines, Stmt.lines_eq r s]
    rfl

end

/-! ## Functions and blocks are lines

A text of lines is the first of them, and each of the others behind a line end.  That is how an emitter writes, and how texts
are put together from lines (`intercalate_newline`). -/

/-- Lines put together are the first one and the others below it. -/
theorem intercalate_newline (l : Line) (ls : List Line) (depth : Nat) :
    "\n".intercalate ((l :: ls).map (Line.printed depth))
      = l.printed depth ++ String.join (ls.map fun l => "\n" ++ l.printed depth) := by
  -- on the lines below the first, which changes in every step
  induction ls generalizing l with
  | nil => simp [String.join_nil]
  | cons m ls ih =>
    have hm := ih m
    simp only [List.map_cons, String.join_cons] at hm ⊢
    rw [String.intercalate_cons_cons, hm]
    simp only [String.append_assoc]

/-- A function is its lines. -/
theorem Func.render_eq (r : Registry) (f : Func) (h : allHeaded (f.body.getD [])) :
    f.render r = "\n".intercalate ((f.lines r).map (Line.printed 0)) := by
  have hfirst : (({} : Emitter).line (f.signature r)).inline " \x7b" = { text := f.signature r ++ " \x7b" } := by
    simp [Emitter.line, Emitter.inline, Emitter.indentation]
  have hne : f.signature r ++ " \x7b" ≠ "" := by
    intro he
    exact absurd (String.append_eq_empty_iff.mp he).2 (by decide)
  have hbody := emitAll_eq r (f.body.getD []) (e := ({ text := f.signature r ++ " \x7b" } : Emitter).enter) h hne
  rw [Func.lines, blockOf, List.cons_append, intercalate_newline, Func.render, Func.emit, Block.emit, hfirst, hbody,
    Emitter.enter_below_exit, Emitter.line_eq (Emitter.below_text_ne hne _), Emitter.below_append]
  simp [Emitter.below, Line.printed]

/-- A block is its lines, one level deep. -/
theorem Block.render_eq (r : Registry) (b : Block) (h : allHeaded b) :
    Block.render r b = "\n".intercalate ((blockLines r b).map (Line.printed 1)) := by
  cases b with
  | nil => rfl
  | cons s rest =>
    have hb : s.isHeaded ∧ allHeaded rest := by
      simpa only [allHeaded, Bool.and_eq_true] using h
    have hfirst : ({} : Emitter).enter.line (s.first r) = { depth := 1, text := Line.printed 1 (0, s.first r) } := by
      simp [Emitter.enter, Emitter.line, Line.printed_eq]
    -- the first line is indented, so something is written before the others
    have hne : (({} : Emitter).enter.line (s.first r)).text ≠ "" := by
      rw [hfirst]
      intro he
      have hindented : Emitter.indentation 1 ≠ "" := by decide
      exact hindented (String.append_eq_empty_iff.mp he).1
    have hrest := Emitter.below_text_ne hne (s.lines r).tail
    rw [Block.render, Block.emit, emitAll, Stmt.emit_eq r s hb.1 hne, emitAll_eq r rest hb.2 hrest, Emitter.below_append,
      hfirst, blockLines, Stmt.lines_eq r s, List.cons_append, intercalate_newline]
    rfl

end SeedCorpus
