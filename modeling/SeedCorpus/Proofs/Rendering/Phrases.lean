/-
  Expressions, read again.

  An expression is known from its text, if the registry tells apart what it names (`Registry.TellsApart`).

  1. The signs of operations and the spellings of types are read up to the blank behind them (`sign_cut`, `spelling_cut`).
  2. An expression is a word and what stands behind it (`Expr.toList_render`).  The word and the next character say which
     form it has (`Expr.formOf_eq`), so the text of an expression is read in one way only, whatever stands behind it
     (`Expr.render_cut`): the induction is on the expression, and brackets and blanks end what stands between them.
-/
import SeedCorpus.Proofs.Synthesis.Naming
import SeedCorpus.Proofs.Syntax.Nodes

namespace SeedCorpus

/-! ## Known nodes

Each condition looks at one node.  Whole trees are known when all of their nodes are (`Stmt.MadeOf`), so the proofs below
take conditions apart with the tree. -/

/-- What an expression names is declared or registered, a call has as many arguments as its callee has parameters, and no
text is printed as it stands. -/
def Expr.IsKnown (r : Registry) : Expr → Prop
  | .var v => r.IsVariable v
  | .element base _ => r.IsVariable base
  | .int _ => True
  | .literal _ => False
  | .binary _ op _ => r.IsOperation op
  | .call callee args => (Expr.call callee args).Suits r

/-- What a statement names is declared or registered, no line is printed as it stands, and in the header of a counting
loop stand simple statements. -/
def Stmt.IsKnown (r : Registry) : Stmt → Prop
  | .assign _ op _ => ∀ o, op = some o → r.IsOperation o
  | .declare type declarator _ => r.IsType type ∧ r.IsVariable declarator.variable
  | .count start _ step _ => start.isSimple ∧ step.isSimple
  | .raw _ => False
  | _ => True

/-- Every node of a statement is known. -/
abbrev Stmt.KnownTo (r : Registry) (s : Stmt) : Prop := s.MadeOf (Expr.IsKnown r) (Stmt.IsKnown r)

/-- Every node of a block is known. -/
abbrev Block.KnownTo (r : Registry) (b : Block) : Prop := Block.MadeOf (Expr.IsKnown r) (Stmt.IsKnown r) b

/-! ## Signs and spellings

The tables are short and fixed, so that signs and spellings differ, and what may stand in them, is a matter of checking all
pairs. -/

section Signs

variable {r : Registry} {s t : List Char}

/-- In a sign stands neither a blank nor the sign of an assignment. -/
theorem cSigns_plain : ∀ p ∈ Registry.cSigns, p.2 ≠ "" ∧ ' ' ∉ p.2.toList ∧ '=' ∉ p.2.toList := by decide

/-- Operations are told apart by their signs. -/
theorem Registry.TellsApart.sign_inj (hr : r.TellsApart) {op op' : Operation} (h : r.IsOperation op)
    (h' : r.IsOperation op') (he : r.text op.sign = r.text op'.sign) : op = op' := by
  have hdistinct : ∀ p ∈ Registry.cSigns, ∀ q ∈ Registry.cSigns, p.2 = q.2 → p.1 = q.1 := by decide
  exact hdistinct _ (hr.sign op h) _ (hr.sign op' h') he

/-- A sign is read up to the blank behind it. -/
theorem Registry.TellsApart.sign_cut (hr : r.TellsApart) {op op' : Operation} (h : r.IsOperation op)
    (h' : r.IsOperation op') (he : (r.text op.sign).toList ++ ' ' :: s = (r.text op'.sign).toList ++ ' ' :: t) :
    op = op' ∧ s = t := by
  obtain ⟨-, hblank, -⟩ := cSigns_plain _ (hr.sign op h)
  obtain ⟨-, hblank', -⟩ := cSigns_plain _ (hr.sign op' h')
  obtain ⟨hsign, hrest⟩ := append_cons_inj hblank hblank' he
  exact ⟨hr.sign_inj h h' (String.toList_injective hsign), hrest⟩

/-- The first word of a spelling. -/
theorem cSpellings_word : ∀ p ∈ Registry.cSpellings,
    leadingWord p.2.toList ∈ ["int", "const", "void"].map String.toList := by decide

/-- A spelling is read up to the blank behind it, though there may be one in it. -/
theorem Registry.TellsApart.spelling_cut (hr : r.TellsApart) {type type' : ValueType} (h : r.IsType type)
    (h' : r.IsType type') (he : (r.spelling type).toList ++ ' ' :: s = (r.spelling type').toList ++ ' ' :: t) :
    type = type' ∧ s = t := by
  -- what stands in front of the first blank tells the spellings apart
  have hdistinct : ∀ p ∈ Registry.cSpellings, ∀ q ∈ Registry.cSpellings,
      p.2.toList.takeWhile (· ≠ ' ') = q.2.toList.takeWhile (· ≠ ' ') → p.1 = q.1 := by decide
  have hfront := congrArg (List.takeWhile (· ≠ ' ')) he
  rw [takeWhile_append_cons (by rfl), takeWhile_append_cons (by rfl)] at hfront
  obtain rfl := hdistinct _ (hr.spelling type h) _ (hr.spelling type' h') hfront
  exact ⟨rfl, (List.cons.inj (List.append_cancel_left he)).2⟩

end Signs

/-! ## Expressions -/

/-- The forms of expressions. -/
inductive Expr.Form where
  /-- The name of a variable. -/
  | name
  /-- An element of an array. -/
  | element
  /-- A number. -/
  | number
  /-- A text as it stands. -/
  | text
  /-- A binary operation. -/
  | operation
  /-- A call. -/
  | call
deriving DecidableEq

/-- The form of an expression. -/
def Expr.form : Expr → Expr.Form
  | .var _ => .name
  | .element .. => .element
  | .int _ => .number
  | .literal _ => .text
  | .binary .. => .operation
  | .call .. => .call

/-- The form that a word and the character behind it show. -/
def formOf (word : List Char) (next : Option Char) : Expr.Form :=
  match word with
  | [] => .operation
  | c :: _ =>
    if isNameStart c then
      if next = some '[' then .element else if next = some '(' then .call else .name
    else .number

/-- The word with which an expression begins; an operation begins with a bracket and has none. -/
def Expr.lead (r : Registry) : Expr → List Char
  | .var v => (r.variableName v).toList
  | .element base _ => (r.variableName base).toList
  | .int value => (toString value).toList
  | .call callee _ => (r.functionName callee).toList
  | .literal _ | .binary .. => []

/-- What stands behind that word. -/
def Expr.tail (r : Registry) : Expr → List Char
  | .var _ | .int _ => []
  | .element _ at_ => '[' :: ((at_.render r).toList ++ [']'])
  | .literal text => text.toList
  | .binary lhs op rhs =>
    '(' :: ((lhs.render r).toList ++ ' ' :: ((r.text op.sign).toList ++ ' ' :: ((rhs.render r).toList ++ [')'])))
  | .call _ args => '(' :: ((Expr.renderArgs r args).toList ++ [')'])

section Expressions

variable {r : Registry} {e e' : Expr} {s s' : List Char}

/-- An expression is its word and what stands behind it. -/
theorem Expr.toList_render (r : Registry) (e : Expr) : (e.render r).toList = e.lead r ++ e.tail r := by
  cases e <;> simp [Expr.render, Expr.lead, Expr.tail]

theorem Expr.Suits.isFunction {callee : FuncId} {args : List Expr} (h : (Expr.call callee args).Suits r) :
    r.IsFunction callee := by
  obtain ⟨f, hf, -⟩ := h
  exact Option.isSome_iff_exists.mpr ⟨f, hf⟩

/-- The word of an expression is a word; it may be empty. -/
theorem Expr.lead_isWord (hr : r.TellsApart) (h : e.IsKnown r) : IsWord (e.lead r) := by
  cases e with
  | var v => exact (hr.variableName v h).isWord
  | element base at_ => exact (hr.variableName base h).isWord
  | int value => exact toString_int_isWord value
  | call callee args => exact (hr.functionName callee (Expr.Suits.isFunction h)).isWord
  -- no word at all, so nothing in it can be wrong
  | literal text => exact nofun
  | binary lhs op rhs => exact nofun

/-- The word of an expression ends in front of its tail. -/
theorem Expr.tail_not_word (h : e.IsKnown r) (hs : Stops s) :
    ∀ c, (e.tail r ++ s).head? = some c → isWordChar c = false := by
  -- all tails but the empty one begin with a bracket
  have hfixed : ∀ {d : Char} {rest : List Char}, isWordChar d = false → ∀ c, (d :: rest).head? = some c →
      isWordChar c = false := by
    intro d rest hd c hc
    obtain rfl := Option.some.inj hc
    exact hd
  cases e with
  | var v => exact fun c hc => (hs.of_head hc).1
  | int value => exact fun c hc => (hs.of_head hc).1
  | element base at_ => exact hfixed (by rfl)
  | binary lhs op rhs => exact hfixed (by rfl)
  | call callee args => exact hfixed (by rfl)
  | literal text => exact h.elim

/-- The word of an expression is the word with which its text begins. -/
theorem Expr.leadingWord_render (hr : r.TellsApart) (h : e.IsKnown r) (hs : Stops s) :
    leadingWord ((e.render r).toList ++ s) = e.lead r := by
  rw [Expr.toList_render, List.append_assoc]
  exact leadingWord_append (Expr.lead_isWord hr h) (Expr.tail_not_word h hs)

/-- The word of an expression and the character behind it show its form. -/
theorem Expr.formOf_eq (hr : r.TellsApart) (h : e.IsKnown r) (hs : Stops s) :
    formOf (e.lead r) (e.tail r ++ s).head? = e.form := by
  cases e with
  | var v =>
    obtain ⟨c, rest, hlist, hc⟩ := (hr.variableName v h).start
    have hround : s.head? ≠ some '(' := fun he => (hs.of_head he).2.1 rfl
    have hsquare : s.head? ≠ some '[' := fun he => (hs.of_head he).2.2 rfl
    simp [formOf, Expr.lead, Expr.tail, Expr.form, hlist, hc, hround, hsquare]
  | element base at_ =>
    obtain ⟨c, rest, hlist, hc⟩ := (hr.variableName base h).start
    simp [formOf, Expr.lead, Expr.tail, Expr.form, hlist, hc]
  | int value =>
    obtain ⟨c, rest, hlist, hc⟩ := toString_int_start value
    simp only [formOf, Expr.lead, Expr.form, hlist, hc]
    rfl
  | call callee args =>
    obtain ⟨c, rest, hlist, hc⟩ := (hr.functionName callee (Expr.Suits.isFunction h)).start
    simp [formOf, Expr.lead, Expr.tail, Expr.form, hlist, hc]
  | binary lhs op rhs => rfl
  | literal text => exact h.elim

/-- Expressions with one text have one word and one form, and they go on alike. -/
theorem Expr.cut (hr : r.TellsApart) (h : e.IsKnown r) (h' : e'.IsKnown r) (hs : Stops s) (hs' : Stops s')
    (he : (e.render r).toList ++ s = (e'.render r).toList ++ s') :
    e.form = e'.form ∧ e.lead r = e'.lead r ∧ e.tail r ++ s = e'.tail r ++ s' := by
  rw [Expr.toList_render, Expr.toList_render, List.append_assoc, List.append_assoc] at he
  obtain ⟨hlead, htail⟩ := cut_unique (Expr.lead_isWord hr h) (Expr.lead_isWord hr h') (Expr.tail_not_word h hs)
    (Expr.tail_not_word h' hs') he
  refine ⟨?_, hlead, htail⟩
  rw [← Expr.formOf_eq hr h hs, ← Expr.formOf_eq hr h' hs', hlead, htail]

mutual

/-- **The text of an expression is read in one way only**, whatever stands behind it. -/
theorem Expr.render_cut (hr : r.TellsApart) : ∀ (e e' : Expr) {s s' : List Char}, e.All (Expr.IsKnown r) →
    e'.All (Expr.IsKnown r) → Stops s → Stops s' → (e.render r).toList ++ s = (e'.render r).toList ++ s' → e = e' ∧ s = s'
  | .var v, e', s, s', h, h', hs, hs', he => by
    obtain ⟨hform, hlead, htail⟩ := Expr.cut hr h.self h'.self hs hs' he
    cases e' with
    | var w =>
      obtain rfl := hr.variableName_inj v w h.self h'.self (String.toList_injective hlead)
      exact ⟨rfl, htail⟩
    | _ => cases hform
  | .element base at_, e', s, s', h, h', hs, hs', he => by
    obtain ⟨hform, hlead, htail⟩ := Expr.cut hr h.self h'.self hs hs' he
    cases e' with
    | element base' at' =>
      obtain ⟨hbase, hat⟩ := Expr.all_element.mp h
      obtain ⟨hbase', hat'⟩ := Expr.all_element.mp h'
      obtain rfl := hr.variableName_inj base base' hbase hbase' (String.toList_injective hlead)
      -- the index ends at the closing bracket
      have hindex : (at_.render r).toList ++ ']' :: s = (at'.render r).toList ++ ']' :: s' := by
        simpa [Expr.tail] using htail
      obtain ⟨rfl, hrest⟩ := Expr.render_cut hr at_ at' hat hat' (by rfl) (by rfl) hindex
      exact ⟨rfl, (List.cons.inj hrest).2⟩
    | _ => cases hform
  | .int value, e', s, s', h, h', hs, hs', he => by
    obtain ⟨hform, hlead, htail⟩ := Expr.cut hr h.self h'.self hs hs' he
    cases e' with
    | int value' =>
      obtain rfl := toString_int_injective (String.toList_injective hlead)
      exact ⟨rfl, htail⟩
    | _ => cases hform
  | .literal text, e', s, s', h, h', hs, hs', he => h.self.elim
  | .binary lhs op rhs, e', s, s', h, h', hs, hs', he => by
    obtain ⟨hform, hlead, htail⟩ := Expr.cut hr h.self h'.self hs hs' he
    cases e' with
    | binary lhs' op' rhs' =>
      obtain ⟨hop, hlhs, hrhs⟩ := Expr.all_binary.mp h
      obtain ⟨hop', hlhs', hrhs'⟩ := Expr.all_binary.mp h'
      have hinner : (lhs.render r).toList ++
            ' ' :: ((r.text op.sign).toList ++ ' ' :: ((rhs.render r).toList ++ ')' :: s)) =
          (lhs'.render r).toList ++
            ' ' :: ((r.text op'.sign).toList ++ ' ' :: ((rhs'.render r).toList ++ ')' :: s')) := by
        simpa [Expr.tail] using htail
      obtain ⟨rfl, hbehind⟩ := Expr.render_cut hr lhs lhs' hlhs hlhs' (by rfl) (by rfl) hinner
      obtain ⟨rfl, hright⟩ := Registry.TellsApart.sign_cut hr hop hop' (List.cons.inj hbehind).2
      obtain ⟨rfl, hrest⟩ := Expr.render_cut hr rhs rhs' hrhs hrhs' (by rfl) (by rfl) hright
      exact ⟨rfl, (List.cons.inj hrest).2⟩
    | _ => cases hform
  | .call callee args, e', s, s', h, h', hs, hs', he => by
    obtain ⟨hform, hlead, htail⟩ := Expr.cut hr h.self h'.self hs hs' he
    cases e' with
    | call callee' args' =>
      obtain ⟨hcall, hargs⟩ := Expr.all_call.mp h
      obtain ⟨hcall', hargs'⟩ := Expr.all_call.mp h'
      obtain rfl := hr.functionName_inj callee callee' (Expr.Suits.isFunction hcall) (Expr.Suits.isFunction hcall')
        (String.toList_injective hlead)
      -- calls of one function have equally many arguments
      obtain ⟨f, hf, hlength⟩ := hcall
      obtain ⟨f', hf', hlength'⟩ := hcall'
      obtain rfl := Option.some.inj (hf.symm.trans hf')
      have hinner : (Expr.renderArgs r args).toList ++ ')' :: s = (Expr.renderArgs r args').toList ++ ')' :: s' := by
        simpa [Expr.tail] using htail
      obtain ⟨rfl, hrest⟩ := Expr.renderArgs_cut hr args args' (hlength.trans hlength'.symm) hargs hargs' hinner
      exact ⟨rfl, hrest⟩
    | _ => cases hform

/-- Equally many arguments are read in one way only up to the bracket that closes them. -/
theorem Expr.renderArgs_cut (hr : r.TellsApart) : ∀ (args args' : List Expr) {s s' : List Char},
    args.length = args'.length → (∀ x ∈ args, x.All (Expr.IsKnown r)) → (∀ x ∈ args', x.All (Expr.IsKnown r)) →
      (Expr.renderArgs r args).toList ++ ')' :: s = (Expr.renderArgs r args').toList ++ ')' :: s' → args = args' ∧ s = s'
  | [], [], s, s', _, _, _, he => ⟨rfl, (List.cons.inj he).2⟩
  | [e], [e'], s, s', _, h, h', he => by
    obtain ⟨rfl, hrest⟩ := Expr.render_cut hr e e' (h e List.mem_cons_self) (h' e' List.mem_cons_self) (by rfl) (by rfl)
      he
    exact ⟨rfl, (List.cons.inj hrest).2⟩
  | e :: f :: rest, e' :: f' :: rest', s, s', hlength, h, h', he => by
    have hfirst : (e.render r).toList ++ ',' :: ' ' :: ((Expr.renderArgs r (f :: rest)).toList ++ ')' :: s) =
        (e'.render r).toList ++ ',' :: ' ' :: ((Expr.renderArgs r (f' :: rest')).toList ++ ')' :: s') := by
      simpa [Expr.renderArgs] using he
    obtain ⟨rfl, hbehind⟩ := Expr.render_cut hr e e' (h e List.mem_cons_self) (h' e' List.mem_cons_self) (by rfl) (by rfl)
      hfirst
    have hmore := (List.cons.inj (List.cons.inj hbehind).2).2
    obtain ⟨hrest, hs⟩ := Expr.renderArgs_cut hr (f :: rest) (f' :: rest') (Nat.succ.inj hlength)
      (fun x hx => h x (List.mem_cons_of_mem e hx)) (fun x hx => h' x (List.mem_cons_of_mem e hx)) hmore
    exact ⟨by rw [hrest], hs⟩

end

end Expressions

end SeedCorpus
