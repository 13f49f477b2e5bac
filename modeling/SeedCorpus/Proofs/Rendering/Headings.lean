/-
  Headings, read again.

  What stands on the first line of a statement is known from its text, if the registry tells apart what it names.

  1. Assignments, declarations and effects are told apart by their first word (`Stmt.openingOf_header`) and by what follows
     the first expression (`Stmt.assignText_ne_render`), so the text of a simple statement is read in one way only
     (`Stmt.headerText_cut`).
  2. The first word of a statement says whether it is one of these, a conditional, a loop or the end of a function
     (`Stmt.openingOf_first`).  So its first line says all of it but its blocks (`Stmt.bare_of_first`).
-/
import SeedCorpus.Proofs.Rendering.Phrases

namespace SeedCorpus

/-! ## Simple statements

These are the statements that can stand in the header of a loop as well as on a line of their own.  So they are read in front
of any text that ends them, be it a semicolon or a closing bracket. -/

/-- What statements begin with. -/
inductive Opening where
  /-- An expression. -/
  | expression
  /-- The spelling of a type. -/
  | declaration
  /-- The word `if`. -/
  | conditional
  /-- The word `for`. -/
  | counting
  /-- The word `while`. -/
  | looping
  /-- The word `return`. -/
  | returning
  /-- A text as it stands. -/
  | text
deriving DecidableEq

/-- What a statement begins with. -/
def Stmt.opening : Stmt → Opening
  | .assign .. | .effect _ => .expression
  | .declare .. => .declaration
  | .branch .. => .conditional
  | .count .. => .counting
  | .loop .. => .looping
  | .result _ => .returning
  | .raw _ => .text

/-- What the first word shows. -/
def openingOf (word : List Char) : Opening :=
  if word = "if".toList then .conditional
  else if word = "for".toList then .counting
  else if word = "while".toList then .looping
  else if word = "return".toList then .returning
  else if word ∈ ["int", "const", "void"].map String.toList then .declaration
  else .expression

/-- A simple statement ends in front of the text. -/
def Ends (s : List Char) : Prop := s.head?.any (fun c => c = ';' || c = ')') = true

section Simple

variable {r : Registry} {e : Expr} {s s' : List Char}

/-- What ends a statement begins with a semicolon or a bracket. -/
theorem Ends.head (h : Ends s) : ∃ c rest, s = c :: rest ∧ (c = ';' ∨ c = ')') := by
  cases s with
  | nil => cases h
  | cons c rest => exact ⟨c, rest, rfl, by simpa [Ends] using h⟩

/-- And so no word goes on there. -/
theorem Ends.stops (h : Ends s) : Stops s := by
  obtain ⟨c, rest, rfl, rfl | rfl⟩ := h.head <;> rfl

/-- A text that begins with a blank ends no statement. -/
theorem not_ends_blank (s : List Char) : ¬ Ends (' ' :: s) := by
  intro h
  obtain ⟨c, rest, hlist, hc⟩ := h.head
  obtain ⟨rfl, -⟩ := List.cons.inj hlist
  rcases hc with hc | hc <;> cases hc

/-- The word of an expression is no keyword. -/
theorem Expr.openingOf_lead (hr : r.TellsApart) (h : e.IsKnown r) : openingOf (e.lead r) = .expression := by
  -- names are not keywords, and everything else does not begin like one
  have hfree : e.lead r ∉ keywords.map String.toList := by
    have hkeywords : ∀ k ∈ keywords, k.toList.head?.any isNameStart = true := by decide
    intro hm
    obtain ⟨k, hk, hlead⟩ := List.mem_map.mp hm
    have hstart := hkeywords k hk
    have hname : ∀ name, IsCName name → k.toList ≠ name.toList := fun name hn he =>
      hn.free (String.toList_injective he ▸ hk)
    cases e with
    | var v => exact hname _ (hr.variableName v h) hlead
    | element base at_ => exact hname _ (hr.variableName base h) hlead
    | call callee args => exact hname _ (hr.functionName callee (Expr.Suits.isFunction h)) hlead
    | int value =>
      -- no keyword begins like a number
      obtain ⟨c, rest, hlist, hc⟩ := toString_int_start value
      rw [hlead, Expr.lead, hlist, List.head?_cons, Option.any_some, hc] at hstart
      cases hstart
    | literal text => exact h.elim
    | binary lhs op rhs =>
      rw [hlead] at hstart
      cases hstart
  simp only [keywords, List.map_cons, List.map_nil, List.mem_cons, not_or] at hfree
  obtain ⟨hif, -, hfor, hwhile, hreturn, hint, hconst, -, hvoid, -⟩ := hfree
  have htype : e.lead r ∉ ["int", "const", "void"].map String.toList := by
    simp only [List.map_cons, List.map_nil, List.mem_cons, not_or]
    exact ⟨hint, hconst, hvoid, List.not_mem_nil⟩
  rw [openingOf, if_neg hif, if_neg hfor, if_neg hwhile, if_neg hreturn, if_neg htype]

/-- A statement that begins with an expression shows it. -/
theorem Expr.openingOf_render (hr : r.TellsApart) (h : e.IsKnown r) (hs : Stops s) :
    openingOf (leadingWord ((e.render r).toList ++ s)) = .expression := by
  rw [Expr.leadingWord_render hr h hs]
  exact Expr.openingOf_lead hr h

/-- An assignment is its target, a blank, its sign with the equals sign, a blank and its value. -/
theorem Stmt.toList_assignText (r : Registry) (target : Place) (op : Option Operation) (value : Expr) (s : List Char) :
    (Stmt.assignText r target op value).toList ++ s = (target.toExpr.render r).toList ++
      ' ' :: (((op.map (r.text ·.sign)).getD "").toList ++ '=' :: ' ' :: ((value.render r).toList ++ s)) := by
  simp [Stmt.assignText, Place.render]

/-- What a declaration writes behind the name. -/
def Declarator.suffix : Declarator → List Char
  | .scalar _ => []
  | .array _ => ['[', ']']

/-- A declaration is the spelling of its type, a blank, its name, brackets if it is an array, and its value. -/
theorem Stmt.toList_declareText (r : Registry) (type : ValueType) (declarator : Declarator) (value : Expr)
    (s : List Char) :
    (Stmt.declareText r type declarator value).toList ++ s = (r.spelling type).toList ++
      ' ' :: ((r.variableName declarator.variable).toList ++
        (declarator.suffix ++ ' ' :: '=' :: ' ' :: ((value.render r).toList ++ s))) := by
  cases declarator <;>
    simp [Stmt.declareText, Declarator.render, Declarator.variable, Declarator.suffix]

/-- A simple statement shows what it begins with. -/
theorem Stmt.openingOf_header (hr : r.TellsApart) {t : Stmt} (ht : t.KnownTo r)
    (hsimple : t.isSimple) (hs : Stops s) : openingOf (leadingWord ((t.headerText r).toList ++ s)) = t.opening := by
  -- an expression in front, or the spelling of a type
  cases t with
  | assign target op value =>
    rw [Stmt.headerText, Stmt.toList_assignText]
    exact Expr.openingOf_render hr ht.assign.1.self (by rfl)
  | declare type declarator value =>
    have hopening : ∀ w ∈ ["int", "const", "void"].map String.toList, openingOf w = .declaration := by decide
    rw [Stmt.headerText, Stmt.toList_declareText, leadingWord, takeWhile_append_cons (by rfl)]
    exact hopening _ (cSpellings_word _ (hr.spelling type ht.self.1))
  | effect value => exact Expr.openingOf_render hr ht.effect.self hs
  | raw text => exact ht.self.elim
  | _ => cases hsimple

/-- The sign of an assignment is read up to the equals sign. -/
theorem assignSign_cut (hr : r.TellsApart) {op op' : Option Operation} (h : ∀ o, op = some o → r.IsOperation o)
    (h' : ∀ o, op' = some o → r.IsOperation o)
    (he : ((op.map (r.text ·.sign)).getD "").toList ++ '=' :: s =
      ((op'.map (r.text ·.sign)).getD "").toList ++ '=' :: s') :
    op = op' ∧ s = s' := by
  -- no sign holds an equals sign, so the first one is that of the assignment
  have hplain : ∀ {p : Option Operation}, (∀ o, p = some o → r.IsOperation o) →
      '=' ∉ ((p.map (r.text ·.sign)).getD "").toList := by
    intro p hp hm
    cases p with
    | none => cases hm
    | some o => exact (cSigns_plain _ (hr.sign o (hp o rfl))).2.2 hm
  obtain ⟨hlist, hrest⟩ := append_cons_inj (hplain h) (hplain h') he
  refine ⟨?_, hrest⟩
  have hsign := String.toList_injective hlist
  cases op with
  | none =>
    cases op' with
    | none => rfl
    | some o' => exact absurd hsign.symm (cSigns_plain _ (hr.sign o' (h' o' rfl))).1
  | some o =>
    cases op' with
    | none => exact absurd hsign (cSigns_plain _ (hr.sign o (h o rfl))).1
    | some o' => exact congrArg some (hr.sign_inj (h o rfl) (h' o' rfl) hsign)

/-- A place is told by the expression that it is. -/
theorem Place.toExpr_injective {p q : Place} (h : p.toExpr = q.toExpr) : p = q := by
  cases p <;> cases q <;> cases h <;> rfl

/-- The text of an assignment is read in one way only. -/
theorem Stmt.assignText_cut (hr : r.TellsApart) {target target' : Place} {op op' : Option Operation} {value value' : Expr}
    (h : (Stmt.assign target op value).KnownTo r)
    (h' : (Stmt.assign target' op' value').KnownTo r) (hs : Stops s) (hs' : Stops s')
    (he : (Stmt.assignText r target op value).toList ++ s = (Stmt.assignText r target' op' value').toList ++ s') :
    Stmt.assign target op value = .assign target' op' value' ∧ s = s' := by
  rw [Stmt.toList_assignText, Stmt.toList_assignText] at he
  -- piece by piece: the target, the sign, the value
  obtain ⟨htarget, hbehind⟩ := Expr.render_cut hr _ _ h.assign.1 h'.assign.1 (by rfl) (by rfl) he
  obtain ⟨rfl, hright⟩ := assignSign_cut hr h.self h'.self (List.cons.inj hbehind).2
  obtain ⟨rfl, hrest⟩ := Expr.render_cut hr value value' h.assign.2 h'.assign.2 hs hs' (List.cons.inj hright).2
  obtain rfl := Place.toExpr_injective htarget
  exact ⟨rfl, hrest⟩

/-- The text of a declaration is read in one way only. -/
theorem Stmt.declareText_cut (hr : r.TellsApart) {type type' : ValueType} {d d' : Declarator} {value value' : Expr}
    (h : (Stmt.declare type d value).KnownTo r)
    (h' : (Stmt.declare type' d' value').KnownTo r) (hs : Stops s) (hs' : Stops s')
    (he : (Stmt.declareText r type d value).toList ++ s = (Stmt.declareText r type' d' value').toList ++ s') :
    Stmt.declare type d value = .declare type' d' value' ∧ s = s' := by
  obtain ⟨htype, hvariable⟩ := h.self
  obtain ⟨htype', hvariable'⟩ := h'.self
  rw [Stmt.toList_declareText, Stmt.toList_declareText] at he
  -- the type, the name, whether there are brackets, the value
  obtain ⟨rfl, hname⟩ := hr.spelling_cut htype htype' he
  have hstop : ∀ (x : Declarator) (rest : List Char) (c : Char), (x.suffix ++ ' ' :: rest).head? = some c →
      isWordChar c = false := by
    intro x rest c hc
    cases x <;> obtain rfl := Option.some.inj hc <;> rfl
  obtain ⟨hsame, hsuffix⟩ := cut_unique (hr.variableName _ hvariable).isWord (hr.variableName _ hvariable').isWord
    (hstop d _) (hstop d' _) hname
  have hvar := hr.variableName_inj _ _ hvariable hvariable' (String.toList_injective hsame)
  -- a blank or a bracket stands behind the name
  have hboth : d = d' ∧ (value.render r).toList ++ s = (value'.render r).toList ++ s' := by
    cases d with
    | scalar v =>
      cases d' with
      | scalar v' =>
        obtain rfl : v = v' := hvar
        exact ⟨rfl, by simpa [Declarator.suffix] using hsuffix⟩
      | array v' => cases (List.cons.inj hsuffix).1
    | array v =>
      cases d' with
      | scalar v' => cases (List.cons.inj hsuffix).1
      | array v' =>
        obtain rfl : v = v' := hvar
        exact ⟨rfl, by simpa [Declarator.suffix] using hsuffix⟩
  obtain ⟨rfl, hvalue⟩ := hboth
  obtain ⟨rfl, hrest⟩ := Expr.render_cut hr value value' h.declare h'.declare hs hs' hvalue
  exact ⟨rfl, hrest⟩

/-- An assignment goes on behind its target, where an effect ends. -/
theorem Stmt.assignText_ne_render (hr : r.TellsApart) {target : Place} {op : Option Operation} {value : Expr}
    (h : (Stmt.assign target op value).KnownTo r) (h' : e.All (Expr.IsKnown r))
    (hs' : Ends s') : (Stmt.assignText r target op value).toList ++ s ≠ (e.render r).toList ++ s' := by
  intro he
  rw [Stmt.toList_assignText] at he
  obtain ⟨-, hbehind⟩ := Expr.render_cut hr _ _ h.assign.1 h' (by rfl) hs'.stops he
  rw [← hbehind] at hs'
  exact not_ends_blank _ hs'

/-- **The text of a simple statement is read in one way only** in front of a semicolon or a closing bracket. -/
theorem Stmt.headerText_cut (hr : r.TellsApart) {t t' : Stmt} (ht : t.KnownTo r)
    (ht' : t'.KnownTo r) (hsimple : t.isSimple) (hsimple' : t'.isSimple) (hs : Ends s)
    (hs' : Ends s') (he : (t.headerText r).toList ++ s = (t'.headerText r).toList ++ s') : t = t' ∧ s = s' := by
  have hopening : t.opening = t'.opening := by
    rw [← Stmt.openingOf_header hr ht hsimple hs.stops, he, Stmt.openingOf_header hr ht' hsimple' hs'.stops]
  -- what the statements begin with is the same, and that leaves four pairs
  cases t with
  | assign target op value =>
    cases t' with
    | assign target' op' value' => exact Stmt.assignText_cut hr ht ht' hs.stops hs'.stops he
    | effect value' => exact absurd he (Stmt.assignText_ne_render hr ht ht'.effect hs')
    | _ => cases hopening
  | declare type declarator value =>
    cases t' with
    | declare type' declarator' value' => exact Stmt.declareText_cut hr ht ht' hs.stops hs'.stops he
    | _ => cases hopening
  | effect value =>
    cases t' with
    | assign target' op' value' => exact absurd he.symm (Stmt.assignText_ne_render hr ht' ht.effect hs)
    | effect value' =>
      obtain ⟨rfl, hrest⟩ := Expr.render_cut hr value value' ht.effect ht'.effect hs.stops hs'.stops he
      exact ⟨rfl, hrest⟩
    | _ => cases hopening
  | raw text => exact ht.self.elim
  | _ => cases hsimple

end Simple

/-! ## First lines

The statements that are not simple begin with a word of their own, and their headers are made of parts that are read one
after the other. -/

/-- A statement without its blocks. -/
def Stmt.bare : Stmt → Stmt
  | .branch condition _ _ => .branch condition [] none
  | .count start condition step _ => .count start condition step []
  | .loop condition _ => .loop condition []
  | s => s

section First

variable {r : Registry} {t t' : Stmt}

/-- A simple statement on a line of its own has a semicolon behind it. -/
theorem Stmt.toList_first (ht : t.KnownTo r) (hsimple : t.isSimple) :
    (t.first r).toList = (t.headerText r).toList ++ [';'] := by
  cases t with
  | raw text => exact ht.self.elim
  | assign target op value => simp [Stmt.first, Stmt.headerText]
  | declare type declarator value => simp [Stmt.first, Stmt.headerText]
  | effect value => simp [Stmt.first, Stmt.headerText]
  | _ => cases hsimple

/-- The first line of a statement shows what it begins with. -/
theorem Stmt.openingOf_first (hr : r.TellsApart) (ht : t.KnownTo r) :
    openingOf (leadingWord (t.first r).toList) = t.opening := by
  -- a keyword with a blank behind it is the first word
  have hkeyword : ∀ (word rest : List Char), IsWord word → leadingWord (word ++ ' ' :: rest) = word := by
    intro word rest hword
    refine leadingWord_append hword fun c hc => ?_
    obtain rfl := Option.some.inj hc
    rfl
  by_cases hsimple : t.isSimple
  · rw [Stmt.toList_first ht hsimple]
    exact Stmt.openingOf_header hr ht hsimple (by rfl)
  · cases t with
    | result value =>
      have htext : ((Stmt.result value).first r).toList = "return".toList ++ ' ' :: (value.render r ++ ";").toList := by
        simp [Stmt.first]
      rw [htext, hkeyword _ _ (by decide)]
      rfl
    | branch condition body alternative =>
      have htext : ((Stmt.branch condition body alternative).first r).toList =
          "if".toList ++ ' ' :: ("(" ++ condition.render r ++ ") \x7b").toList := by
        simp [Stmt.first]
      rw [htext, hkeyword _ _ (by decide)]
      rfl
    | count start condition step body =>
      have htext : ((Stmt.count start condition step body).first r).toList = "for".toList ++ ' ' ::
          ("(" ++ start.headerText r ++ "; " ++ condition.render r ++ "; " ++ step.headerText r ++ ") \x7b").toList := by
        simp [Stmt.first]
      rw [htext, hkeyword _ _ (by decide)]
      rfl
    | loop condition body =>
      have htext : ((Stmt.loop condition body).first r).toList =
          "while".toList ++ ' ' :: ("(" ++ condition.render r ++ ") \x7b").toList := by
        simp [Stmt.first]
      rw [htext, hkeyword _ _ (by decide)]
      rfl
    | _ => exact absurd rfl hsimple

/-- What a statement begins with says whether it is simple. -/
theorem Stmt.isSimple_eq_of_opening (h : t.opening = t'.opening) : t.isSimple = t'.isSimple := by
  cases t <;> cases t' <;> first | rfl | cases h

/-- **The first line of a statement says all of it but its blocks.** -/
theorem Stmt.bare_of_first (hr : r.TellsApart) (ht : t.KnownTo r)
    (ht' : t'.KnownTo r) (h : t.first r = t'.first r) : t.bare = t'.bare := by
  have hopening : t.opening = t'.opening := by
    rw [← Stmt.openingOf_first hr ht, h, Stmt.openingOf_first hr ht']
  -- lines are compared from here on as lists of characters, to take them apart
  have htext := congrArg String.toList h
  by_cases hsimple : t.isSimple
  · have hsimple' : t'.isSimple := by
      rw [← Stmt.isSimple_eq_of_opening hopening]
      exact hsimple
    rw [Stmt.toList_first ht hsimple, Stmt.toList_first ht' hsimple'] at htext
    obtain ⟨rfl, -⟩ := Stmt.headerText_cut hr ht ht' hsimple hsimple' (by rfl) (by rfl) htext
    rfl
  · cases t with
    | result value =>
      cases t' with
      | result value' =>
        have hvalue : (value.render r).toList ++ [';'] = (value'.render r).toList ++ [';'] := by
          simpa [Stmt.first] using htext
        obtain ⟨rfl, -⟩ := Expr.render_cut hr value value' ht.result ht'.result (by rfl) (by rfl) hvalue
        rfl
      | _ => cases hopening
    | branch condition body alternative =>
      cases t' with
      | branch condition' body' alternative' =>
        have hcondition : (condition.render r).toList ++ [')', ' ', '{'] =
            (condition'.render r).toList ++ [')', ' ', '{'] := by
          simpa [Stmt.first] using htext
        obtain ⟨rfl, -⟩ := Expr.render_cut hr condition condition' ht.branchCondition ht'.branchCondition (by rfl) (by rfl)
          hcondition
        rfl
      | _ => cases hopening
    | count start condition step body =>
      cases t' with
      | count start' condition' step' body' =>
        obtain ⟨hstart, hcondition, hstep, -⟩ := ht.count
        obtain ⟨hstart', hcondition', hstep', -⟩ := ht'.count
        have hheader : (start.headerText r).toList ++ ';' :: ' ' :: ((condition.render r).toList ++
              ';' :: ' ' :: ((step.headerText r).toList ++ [')', ' ', '{'])) =
            (start'.headerText r).toList ++ ';' :: ' ' :: ((condition'.render r).toList ++
              ';' :: ' ' :: ((step'.headerText r).toList ++ [')', ' ', '{'])) := by
          simpa [Stmt.first] using htext
        -- what is set up, what is asked, what is done at the end of a round
        obtain ⟨rfl, hmore⟩ := Stmt.headerText_cut hr hstart hstart' ht.self.1 ht'.self.1 (by rfl) (by rfl) hheader
        obtain ⟨rfl, hlast⟩ := Expr.render_cut hr condition condition' hcondition hcondition' (by rfl) (by rfl)
          (List.cons.inj (List.cons.inj hmore).2).2
        obtain ⟨rfl, -⟩ := Stmt.headerText_cut hr hstep hstep' ht.self.2 ht'.self.2 (by rfl) (by rfl)
          (List.cons.inj (List.cons.inj hlast).2).2
        rfl
      | _ => cases hopening
    | loop condition body =>
      cases t' with
      | loop condition' body' =>
        have hcondition : (condition.render r).toList ++ [')', ' ', '{'] =
            (condition'.render r).toList ++ [')', ' ', '{'] := by
          simpa [Stmt.first] using htext
        obtain ⟨rfl, -⟩ := Expr.render_cut hr condition condition' ht.loop.1 ht'.loop.1 (by rfl) (by rfl) hcondition
        rfl
      | _ => cases hopening
    | _ => exact absurd rfl hsimple

end First

end SeedCorpus
