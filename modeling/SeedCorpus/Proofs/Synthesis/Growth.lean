/-
  What a registry still knows after it has grown.

  Declarations intern their names.  As long as the way back of the symbol table is right (`SymbolTable.Consistent`), the
  symbol that a name gets has that name as its text, whether it is fresh or not (`intern_spec`).  Texts, variables and
  the heads of functions stay (`Registry.Grows`), so what is known by name stays known (`Has.mono`, `Announces.mono`).

  Bodies are apart from that: `setBody` changes one of them, and declarations change none (`bodyOf`).

  All of this is one pattern.  A relation between an earlier and a later registry is reflexive and transitive (`Grows.refl`,
  `Grows.trans`); each single act is an instance of it; and what is said of ids is monotone along it.  Whoever follows a long
  run therefore composes one growth and carries the facts over at the end, and never looks into the arrays again.
-/
import SeedCorpus.Registry

namespace SeedCorpus

/-! ## Symbol tables

A table has two directions: `texts`, from a symbol to its text, and `newest`, from a text to the symbol that was handed out
for it last.  Only the first grows at its end; the second is searched from the front.  `Consistent` says that going back and
then forth leads to the text one came from. -/

namespace SymbolTable

/-- The way back is right: a text is filed under symbols that have it. -/
def Consistent (t : SymbolTable) : Prop := ∀ e ∈ t.newest, t.text? e.2 = some e.1

/-- The symbols of one table keep their texts in the other. -/
def Keeps (t t' : SymbolTable) : Prop := ∀ s text, t.text? s = some text → t'.text? s = some text

theorem Keeps.refl (t : SymbolTable) : Keeps t t := fun _ _ h => h

theorem Keeps.trans {t t' t'' : SymbolTable} (h : Keeps t t') (h' : Keeps t' t'') : Keeps t t'' :=
  fun s text ht => h' s text (h s text ht)

/-- A new symbol is put behind all others, so that these keep their texts. -/
theorem insert_keeps (t : SymbolTable) (text : String) : Keeps t (t.insert text).2 := by
  intro s other h
  -- a symbol that has a text lies within the old table, and there the new one is the same
  obtain ⟨hlt, -⟩ := Array.getElem?_eq_some_iff.mp h
  show (t.texts.push text)[s.id]? = some other
  rw [Array.getElem?_push_lt hlt]
  exact (Array.getElem?_eq_getElem hlt).symm.trans h

/-- The new symbol has the text that it was made for. -/
theorem text?_insert (t : SymbolTable) (text : String) : (t.insert text).2.text? (t.insert text).1 = some text :=
  Array.getElem?_push_size

/-- Interning gives out a symbol with the text, and keeps everything. -/
theorem intern_spec {t : SymbolTable} (h : t.Consistent) (text : String) :
    (t.intern text).2.Consistent ∧ t.Keeps (t.intern text).2 ∧ (t.intern text).2.text? (t.intern text).1 = some text := by
  unfold intern
  -- either the text is filed already, and consistency is what makes the answer right, or a symbol is made for it
  cases hl : t.lookup text with
  | some s =>
    obtain ⟨l₁, l₂, hnewest, -⟩ := List.lookup_eq_some_iff.mp hl
    exact ⟨h, Keeps.refl t, h (text, s) (by rw [hnewest]; exact List.mem_append_right _ List.mem_cons_self)⟩
  | none =>
    refine ⟨fun e he => ?_, insert_keeps t text, text?_insert t text⟩
    rcases List.mem_cons.mp he with rfl | he
    · exact text?_insert t text
    · exact insert_keeps t text e.2 e.1 (h e he)

/-- A symbol with a text shows it. -/
theorem text_of_text? {t : SymbolTable} {s : Symbol} {text : String} (h : t.text? s = some text) : t.text s = text := by
  rw [SymbolTable.text, h, Option.getD_some]

end SymbolTable

namespace Registry

/-! ## Known by name

Ids say nothing by themselves.  What one wants to know of a variable is what is written for it, and of a function besides
which parameters it has; `Has` and `Announces` say just that, with the look-ups in between done once. -/

/-- The spelling of the type of a variable; empty for an id of another registry. -/
def typeName (r : Registry) (v : VarId) : String := ((r.variableAt? v).map (r.spelling ·.type)).getD ""

/-- A variable has a name and a type of a spelling. -/
def Has (r : Registry) (v : VarId) (name type : String) : Prop :=
  ∃ x, r.variableAt? v = some x ∧ r.symbols.text? x.name = some name ∧ r.symbols.text? x.type.spelling = some type

/-- A function is announced with a name, a type of a spelling and parameters. -/
def Announces (r : Registry) (id : FuncId) (returnType name : String) (params : List VarId) : Prop :=
  ∃ f, r.functionAt? id = some f ∧ r.symbols.text? f.returnType.spelling = some returnType ∧
    r.symbols.text? f.name = some name ∧ f.params = params

/-- The body of a function that has one. -/
def bodyOf (r : Registry) (id : FuncId) : Option Block := (r.functionAt? id).bind (·.body)

variable {r r' r'' : Registry} {v : VarId} {id other : FuncId} {name type returnType : String} {params : List VarId}

/-- A type is found if its key is in the list, whatever the error would have been. -/
theorem type_eq_ok {key : String} {t : ValueType} : r.type key = .ok t ↔ r.types.lookup key = some t := by
  unfold Registry.type
  cases r.types.lookup key with
  | none => simp
  | some u => simp

/-- An operation is found if its key is in the list. -/
theorem operation_eq_ok {key : String} {op : Operation} : r.operation key = .ok op ↔ r.operations.lookup key = some op := by
  unfold Registry.operation
  cases r.operations.lookup key with
  | none => simp
  | some u => simp

/-- A variable of a name is written as that name. -/
theorem Has.variableName (h : r.Has v name type) : r.variableName v = name := by
  obtain ⟨x, hx, hname, -⟩ := h
  rw [Registry.variableName, hx]
  exact SymbolTable.text_of_text? hname

/-- A variable of a type is declared with the spelling of that type. -/
theorem Has.typeName (h : r.Has v name type) : r.typeName v = type := by
  obtain ⟨x, hx, -, htype⟩ := h
  rw [Registry.typeName, hx]
  exact SymbolTable.text_of_text? htype

/-- A function of a name is called by that name. -/
theorem Announces.functionName (h : r.Announces id returnType name params) : r.functionName id = name := by
  obtain ⟨f, hf, -, hname, -⟩ := h
  rw [Registry.functionName, hf]
  exact SymbolTable.text_of_text? hname

/-- A function takes as many arguments as it has parameters. -/
theorem Announces.arity (h : r.Announces id returnType name params) : r.arity id = params.length := by
  obtain ⟨f, hf, -, -, hparams⟩ := h
  rw [Registry.arity, hf, ← hparams]
  rfl

/-- A call with as many arguments as there are parameters is not refused. -/
theorem Announces.call (h : r.Announces id returnType name params) {args : List Expr}
    (hargs : args.length = params.length) :
    r.call id args = .ok (.call id args) := by
  rw [Registry.call, h.arity, if_pos hargs]

/-! ## Growth

The relation leaves bodies open: a function keeps its head, but it may be given a body or another one.  With bodies in it the
relation would not hold of `setBody`, which stands between any two declarations of helpers. -/

/-- The one registry knows all that the other knows, bodies aside. -/
structure Grows (r r' : Registry) : Prop where
  /-- Symbols keep their texts. -/
  texts : r.symbols.Keeps r'.symbols
  /-- Variables stay. -/
  vars : ∀ v x, r.variableAt? v = some x → r'.variableAt? v = some x
  /-- Functions stay, with whatever body. -/
  functions : ∀ id f, r.functionAt? id = some f → ∃ body, r'.functionAt? id = some { f with body := body }
  /-- The types are the same. -/
  types : r'.types = r.types
  /-- The operations are the same. -/
  operations : r'.operations = r.operations

theorem Grows.refl (r : Registry) : Grows r r where
  texts := SymbolTable.Keeps.refl _
  vars _ _ h := h
  functions _ f h := ⟨f.body, h⟩
  types := rfl
  operations := rfl

theorem Grows.trans (h : Grows r r') (h' : Grows r' r'') : Grows r r'' where
  texts := h.texts.trans h'.texts
  vars v x hx := h'.vars v x (h.vars v x hx)
  -- the body of the later one is the body that counts, and the head goes through both
  functions id f hf := by
    obtain ⟨body, hf'⟩ := h.functions id f hf
    obtain ⟨body', hf''⟩ := h'.functions id _ hf'
    exact ⟨body', hf''⟩
  types := h'.types.trans h.types
  operations := h'.operations.trans h.operations

/-- A variable that has a name and a type still has them later. -/
theorem Has.mono (h : r.Has v name type) (hg : Grows r r') : r'.Has v name type := by
  obtain ⟨x, hx, hname, htype⟩ := h
  exact ⟨x, hg.vars v x hx, hg.texts _ _ hname, hg.texts _ _ htype⟩

/-- A function that is announced is announced later, under its name and with its parameters. -/
theorem Announces.mono (h : r.Announces id returnType name params) (hg : Grows r r') :
    r'.Announces id returnType name params := by
  obtain ⟨f, hf, htype, hname, hparams⟩ := h
  obtain ⟨body, hf'⟩ := hg.functions id f hf
  exact ⟨_, hf', hg.texts _ _ htype, hg.texts _ _ hname, hparams⟩

/-- No key of a type changes its meaning. -/
theorem Grows.type_eq (h : Grows r r') (key : String) : r'.type key = r.type key := by
  rw [Registry.type, h.types, Registry.type]

/-- No key of an operation changes its meaning. -/
theorem Grows.operation_eq (h : Grows r r') (key : String) : r'.operation key = r.operation key := by
  rw [Registry.operation, h.operations, Registry.operation]

/-! ## Declarations

Each declaration comes in two lemmas.  The one says that the registry grows, whatever the type is; the other adds what is
known of the new id, and needs the spelling of its type for that. -/

/-- The table that all programs begin with is consistent: it has nine symbols, and each of them can be tried. -/
theorem withCTypes_consistent : withCTypes.symbols.Consistent := by
  unfold SymbolTable.Consistent
  decide

/-- The declaration of a variable, of whatever type, keeps everything. -/
theorem declareVariable_grows (h : r.symbols.Consistent) (t : ValueType) (name : String) :
    Grows r (r.declareVariable t name).2 := by
  obtain ⟨-, hk, -⟩ := SymbolTable.intern_spec h name
  -- interning takes care of the texts; the array of variables grows at its end
  refine ⟨hk, fun v x hx => ?_, fun id f hf => ⟨f.body, hf⟩, rfl, rfl⟩
  obtain ⟨hlt, -⟩ := Array.getElem?_eq_some_iff.mp hx
  show (r.vars.push _)[v.index]? = some x
  rw [Array.getElem?_push_lt hlt]
  exact (Array.getElem?_eq_getElem hlt).symm.trans hx

/-- A variable is declared: it gets the next id, and it has its name and type from then on. -/
theorem declareVariable_spec (h : r.symbols.Consistent) {t : ValueType} (ht : r.symbols.text? t.spelling = some type)
    (name : String) :
    (r.declareVariable t name).2.symbols.Consistent ∧ Grows r (r.declareVariable t name).2 ∧
      (r.declareVariable t name).2.Has ⟨r.vars.size⟩ name type ∧
      (r.declareVariable t name).2.vars.size = r.vars.size + 1 := by
  obtain ⟨hc, hk, hn⟩ := SymbolTable.intern_spec h name
  have hgrow := declareVariable_grows h t name
  -- the new variable stands at the end of the array, with the interned name and the type that was given
  exact ⟨hc, hgrow, ⟨_, Array.getElem?_push_size, hn, hk _ _ ht⟩, Array.size_push _⟩

/-- The functions that are declared stay as they are, bodies and all. -/
theorem functionAt?_declareFunction {f : Func} (hf : r.functionAt? id = some f) (t : ValueType) (name : String)
    (params : List VarId) : (r.declareFunction t name params).2.functionAt? id = some f := by
  obtain ⟨hlt, -⟩ := Array.getElem?_eq_some_iff.mp hf
  show (r.functions.push _)[id.index]? = some f
  rw [Array.getElem?_push_lt hlt]
  exact (Array.getElem?_eq_getElem hlt).symm.trans hf

/-- The declaration of a function, of whatever type, keeps everything. -/
theorem declareFunction_grows (h : r.symbols.Consistent) (t : ValueType) (name : String) (params : List VarId) :
    Grows r (r.declareFunction t name params).2 := by
  obtain ⟨-, hk, -⟩ := SymbolTable.intern_spec h name
  exact ⟨hk, fun v x hx => hx, fun id f hf => ⟨f.body, functionAt?_declareFunction hf t name params⟩, rfl, rfl⟩

/-- A function is announced: it gets the next id and has no body yet, and the bodies of the others stay. -/
theorem declareFunction_spec (h : r.symbols.Consistent) {t : ValueType} (ht : r.symbols.text? t.spelling = some returnType)
    (name : String) (params : List VarId) :
    (r.declareFunction t name params).2.symbols.Consistent ∧ Grows r (r.declareFunction t name params).2 ∧
      (r.declareFunction t name params).2.Announces ⟨r.functions.size⟩ returnType name params ∧
      (r.declareFunction t name params).2.functions.size = r.functions.size + 1 ∧
      ∀ id body, r.bodyOf id = some body → (r.declareFunction t name params).2.bodyOf id = some body := by
  obtain ⟨hc, hk, hn⟩ := SymbolTable.intern_spec h name
  have hgrow := declareFunction_grows h t name params
  refine ⟨hc, hgrow, ⟨_, Array.getElem?_push_size, hk _ _ ht, hn, rfl⟩, Array.size_push _, fun id body hbody => ?_⟩
  -- a body that is there belongs to a function that stays as it is
  obtain ⟨f, hf, hb⟩ := Option.bind_eq_some_iff.mp hbody
  exact Option.bind_eq_some_iff.mpr ⟨f, functionAt?_declareFunction hf t name params, hb⟩

/-! ## Bodies

Giving a function its body is the one act that changes an entry in place.  So there are two lemmas for every question: one
about the function itself and one about all others. -/

/-- The function has the body that it was given, and its head is what it was. -/
theorem functionAt?_setBody_self {f : Func} (hf : r.functionAt? id = some f) (body : Block) :
    (r.setBody id body).functionAt? id = some { f with body := some body } := by
  show (r.functions.modify id.index _)[id.index]? = _
  rw [Array.getElem?_modify, if_pos rfl]
  exact congrArg (Option.map _) hf

/-- All other functions are what they were. -/
theorem functionAt?_setBody_ne (h : other ≠ id) (r : Registry) (body : Block) :
    (r.setBody id body).functionAt? other = r.functionAt? other := by
  -- functions are told apart by their place in the array
  have hindex : id.index ≠ other.index := fun he => h (by cases id; cases other; exact congrArg FuncId.mk he.symm)
  show (r.functions.modify id.index _)[other.index]? = _
  rw [Array.getElem?_modify, if_neg hindex]
  rfl

/-- A body takes nothing away that counts as growth. -/
theorem setBody_grows (r : Registry) (id : FuncId) (body : Block) : Grows r (r.setBody id body) := by
  refine ⟨SymbolTable.Keeps.refl _, fun v x hx => hx, fun other f hf => ?_, rfl, rfl⟩
  by_cases h : other = id
  · subst h
    exact ⟨some body, functionAt?_setBody_self hf body⟩
  · exact ⟨f.body, (functionAt?_setBody_ne h r body).trans hf⟩

/-- A function that is announced has the body that it is given. -/
theorem Announces.bodyOf_setBody (h : r.Announces id returnType name params) (body : Block) :
    (r.setBody id body).bodyOf id = some body := by
  obtain ⟨f, hf, -⟩ := h
  rw [bodyOf, functionAt?_setBody_self hf]
  rfl

/-- The bodies of all other functions are what they were. -/
theorem bodyOf_setBody_ne (h : other ≠ id) (r : Registry) (body : Block) :
    (r.setBody id body).bodyOf other = r.bodyOf other := by
  rw [bodyOf, functionAt?_setBody_ne h, bodyOf]

/-- A function with a body is not the next one to be announced. -/
theorem ne_next_of_bodyOf {body : Block} (h : r.bodyOf id = some body) : id ≠ ⟨r.functions.size⟩ := by
  -- the next id lies behind the end of the array, where there is no function yet
  rintro rfl
  obtain ⟨f, hf, -⟩ := Option.bind_eq_some_iff.mp h
  obtain ⟨hlt, -⟩ := Array.getElem?_eq_some_iff.mp hf
  exact Nat.lt_irrefl _ hlt

end Registry

end SeedCorpus
