/-
  Names of what is declared.

  A registry that grows out of the C types by declarations names its variables and functions in the order of
  their declaration (`Registry.NamedBy`).  One act adds one name to one of the two lists (`NamedBy.perform`), so the lists are
  known after a whole history (`NamedBy.after`).

  If the names are names of C and those of one kind are distinct (`NamesApart`), then the registry tells its ids apart by
  what is written for them (`Registry.TellsApart`): variables and functions by their names, types by their spelling
  and operations by their sign.
-/
import SeedCorpus.Proofs.Synthesis.History
import SeedCorpus.Proofs.Rendering.Words

namespace SeedCorpus

/-! ## Declarations -/

namespace Act

/-- The name that is declared for a variable. -/
def newVariable : Act → Option String
  | .declareVariable _ name => some name
  | _ => none

/-- The name that is declared for a function. -/
def newFunction : Act → Option String
  | .declareFunction _ name _ => some name
  | _ => none

/-- Whether a variable or a function is declared. -/
def isDeclaration : Act → Bool
  | .declareVariable .. | .declareFunction .. => true
  | _ => false

end Act

/-- The names of the variables that are declared, in order. -/
def variableNames (history : List Act) : List String := history.filterMap Act.newVariable

/-- The names of the functions that are declared, in order. -/
def functionNames (history : List Act) : List String := history.filterMap Act.newFunction

/-- Variables and functions are declared and nothing else is done.  All names are names of C, no two variables have one
name, and no two functions have. -/
structure NamesApart (history : List Act) : Prop where
  /-- Nothing else is done. -/
  declares : ∀ act ∈ history, act.isDeclaration
  /-- All names are names of C. -/
  names : ∀ name ∈ variableNames history ++ functionNames history, IsCName name
  /-- The names of variables are distinct. -/
  distinctVariables : (variableNames history).Nodup
  /-- The names of functions are distinct. -/
  distinctFunctions : (functionNames history).Nodup

/-- Texts that are known stay known, one by one. -/
theorem SymbolTable.Keeps.map {t t' : SymbolTable} (h : t.Keeps t') {α : Type} (symbol : α → Symbol) :
    ∀ {xs : List α} {names : List String}, xs.map (fun x => t.text? (symbol x)) = names.map some →
      xs.map (fun x => t'.text? (symbol x)) = names.map some
  | [], [], _ => rfl
  | x :: xs, name :: names, he => by
    obtain ⟨hx, hxs⟩ := List.cons.inj he
    rw [List.map_cons, List.map_cons, h _ _ hx, h.map symbol hxs]

/-- The texts of symbols are found where the symbols are. -/
theorem SymbolTable.getElem?_of_map {t : SymbolTable} {α : Type} {symbol : α → Symbol} {xs : Array α}
    {names : List String} (h : xs.toList.map (fun x => t.text? (symbol x)) = names.map some) {i : Nat} {x : α}
    (hx : xs[i]? = some x) : names[i]? = some (t.text (symbol x)) := by
  have hlist := congrArg (·[i]?) h
  simp only [List.getElem?_map, Array.getElem?_toList, hx, Option.map_some] at hlist
  obtain ⟨name, hname, htext⟩ := Option.map_eq_some_iff.mp hlist.symm
  rw [hname, SymbolTable.text_of_text? htext.symm]

namespace Registry

/-! ## Names in the order of declaration -/

/-- The registry grew out of that with the C types, and its variables and functions have these names. -/
structure NamedBy (r : Registry) (vs fs : List String) : Prop where
  /-- The way back of the symbol table is right. -/
  consistent : r.symbols.Consistent
  /-- The C types and their operations are known. -/
  grows : withCTypes.Grows r
  /-- The names of the variables. -/
  varNames : r.vars.toList.map (fun x => r.symbols.text? x.name) = vs.map some
  /-- The names of the functions. -/
  funcNames : r.functions.toList.map (fun f => r.symbols.text? f.name) = fs.map some

variable {r : Registry} {vs fs : List String} {act : Act} {history : List Act}

theorem withCTypes_namedBy : withCTypes.NamedBy [] [] := ⟨withCTypes_consistent, Grows.refl _, rfl, rfl⟩

/-- A declaration adds its name to the names of its kind. -/
theorem NamedBy.perform (h : r.NamedBy vs fs) (hact : act.isDeclaration) :
    (r.perform act).NamedBy (vs ++ act.newVariable.toList) (fs ++ act.newFunction.toList) := by
  cases act with
  | declareVariable type name =>
    obtain ⟨hc, hk, hn⟩ := SymbolTable.intern_spec h.consistent name
    refine ⟨hc, h.grows.trans (declareVariable_grows h.consistent type name), ?_, ?_⟩
    · simp only [Registry.perform, declareVariable, Array.toList_push, List.map_append, hk.map _ h.varNames,
        List.map_singleton, hn, Act.newVariable, Option.toList_some]
    · show _ = (fs ++ []).map some
      rw [List.append_nil]
      exact hk.map _ h.funcNames
  | declareFunction returnType name params =>
    obtain ⟨hc, hk, hn⟩ := SymbolTable.intern_spec h.consistent name
    refine ⟨hc, h.grows.trans (declareFunction_grows h.consistent returnType name params), ?_, ?_⟩
    · show _ = (vs ++ []).map some
      rw [List.append_nil]
      exact hk.map _ h.varNames
    · simp only [Registry.perform, declareFunction, Array.toList_push, List.map_append, hk.map _ h.funcNames,
        List.map_singleton, hn, Act.newFunction, Option.toList_some]
  | registerType key spelling => cases hact
  | registerOperation key sign => cases hact
  | setBody id body => cases hact

/-- Declarations add their names, one after the other. -/
theorem NamedBy.after : ∀ {history : List Act} {r : Registry} {vs fs : List String},
    r.NamedBy vs fs → (∀ act ∈ history, act.isDeclaration) →
      (r.after history).NamedBy (vs ++ variableNames history) (fs ++ functionNames history)
  | [], r, vs, fs, h, _ => by
    show r.NamedBy (vs ++ []) (fs ++ [])
    rw [List.append_nil, List.append_nil]
    exact h
  | act :: history, r, vs, fs, h, hall => by
    have hvariables : variableNames (act :: history) = act.newVariable.toList ++ variableNames history := by
      cases act <;> rfl
    have hfunctions : functionNames (act :: history) = act.newFunction.toList ++ functionNames history := by
      cases act <;> rfl
    have hrest := (h.perform (hall act List.mem_cons_self)).after fun x hx => hall x (List.mem_cons_of_mem act hx)
    rw [hvariables, hfunctions, ← List.append_assoc, ← List.append_assoc]
    exact hrest

/-! ## What a registry holds -/

/-- A variable is declared. -/
def IsVariable (r : Registry) (v : VarId) : Prop := (r.variableAt? v).isSome

/-- A function is declared. -/
def IsFunction (r : Registry) (id : FuncId) : Prop := (r.functionAt? id).isSome

/-- A type is registered. -/
def IsType (r : Registry) (t : ValueType) : Prop := ∃ key, r.type key = .ok t

/-- An operation is registered. -/
def IsOperation (r : Registry) (op : Operation) : Prop := ∃ key, r.operation key = .ok op

/-- The types of generated programs with their spelling. -/
def cSpellings : List (ValueType × String) := withCTypes.types.map fun e => (e.2, withCTypes.spelling e.2)

/-- The operations of generated programs with their sign. -/
def cSigns : List (Operation × String) := withCTypes.operations.map fun e => (e.2, withCTypes.text e.2.sign)

/-- The variables and functions of a registry have names of C, and they are told apart by them.  Its types and operations
are those of generated programs. -/
structure TellsApart (r : Registry) : Prop where
  /-- The names of variables. -/
  variableName : ∀ v, r.IsVariable v → IsCName (r.variableName v)
  /-- No two variables have one name. -/
  variableName_inj : ∀ v w, r.IsVariable v → r.IsVariable w → r.variableName v = r.variableName w → v = w
  /-- The names of functions. -/
  functionName : ∀ f, r.IsFunction f → IsCName (r.functionName f)
  /-- No two functions have one name. -/
  functionName_inj : ∀ f g, r.IsFunction f → r.IsFunction g → r.functionName f = r.functionName g → f = g
  /-- The types. -/
  spelling : ∀ t, r.IsType t → (t, r.spelling t) ∈ cSpellings
  /-- The operations. -/
  sign : ∀ op, r.IsOperation op → (op, r.text op.sign) ∈ cSigns

/-- A variable is written as the name at its place in the list. -/
theorem NamedBy.variableName (h : r.NamedBy vs fs) {v : VarId} (hv : r.IsVariable v) :
    vs[v.index]? = some (r.variableName v) := by
  obtain ⟨x, hx⟩ := Option.isSome_iff_exists.mp hv
  rw [SymbolTable.getElem?_of_map h.varNames hx, Registry.variableName, hx]
  rfl

/-- A function is written as the name at its place in the list. -/
theorem NamedBy.functionName (h : r.NamedBy vs fs) {f : FuncId} (hf : r.IsFunction f) :
    fs[f.index]? = some (r.functionName f) := by
  obtain ⟨x, hx⟩ := Option.isSome_iff_exists.mp hf
  rw [SymbolTable.getElem?_of_map h.funcNames hx, Registry.functionName, hx]
  rfl

/-- A type that is found under a key is in the list under that key. -/
theorem mem_types {key : String} {t : ValueType} (h : r.type key = .ok t) : (key, t) ∈ r.types := by
  obtain ⟨l₁, l₂, hlist, -⟩ := List.lookup_eq_some_iff.mp (type_eq_ok.mp h)
  rw [hlist]
  exact List.mem_append_right l₁ List.mem_cons_self

/-- An operation that is found under a key is in the list under that key. -/
theorem mem_operations {key : String} {op : Operation} (h : r.operation key = .ok op) : (key, op) ∈ r.operations := by
  obtain ⟨l₁, l₂, hlist, -⟩ := List.lookup_eq_some_iff.mp (operation_eq_ok.mp h)
  rw [hlist]
  exact List.mem_append_right l₁ List.mem_cons_self

/-- A type that is registered has kept its spelling since the registry was made. -/
theorem NamedBy.type (h : r.NamedBy vs fs) {t : ValueType} (ht : r.IsType t) :
    (t, r.spelling t) ∈ cSpellings := by
  have hknown : ∀ e ∈ withCTypes.types, withCTypes.symbols.text? e.2.spelling = some (withCTypes.spelling e.2) := by
    decide
  obtain ⟨key, hkey⟩ := ht
  have hmem : (key, t) ∈ withCTypes.types := mem_types ((h.grows.type_eq key).symm.trans hkey)
  have htext : r.spelling t = withCTypes.spelling t := SymbolTable.text_of_text? (h.grows.texts _ _ (hknown _ hmem))
  rw [htext]
  exact List.mem_map.mpr ⟨_, hmem, rfl⟩

/-- An operation that is registered has kept its sign since the registry was made. -/
theorem NamedBy.operation (h : r.NamedBy vs fs) {op : Operation} (hop : r.IsOperation op) :
    (op, r.text op.sign) ∈ cSigns := by
  have hknown : ∀ e ∈ withCTypes.operations, withCTypes.symbols.text? e.2.sign = some (withCTypes.text e.2.sign) := by
    decide
  obtain ⟨key, hkey⟩ := hop
  have hmem : (key, op) ∈ withCTypes.operations := mem_operations ((h.grows.operation_eq key).symm.trans hkey)
  have htext : r.text op.sign = withCTypes.text op.sign := SymbolTable.text_of_text? (h.grows.texts _ _ (hknown _ hmem))
  rw [htext]
  exact List.mem_map.mpr ⟨_, hmem, rfl⟩

/-- A name stands at one place only among distinct names. -/
theorem index_unique {names : List String} (h : names.Nodup) {i j : Nat} {name : String} (hi : names[i]? = some name)
    (hj : names[j]? = some name) : i = j := by
  obtain ⟨hlt, -⟩ := List.getElem?_eq_some_iff.mp hi
  exact (List.getElem?_inj hlt h).mp (hi.trans hj.symm)

/-- **Distinct names tell apart what is declared.** -/
theorem tellsApart_of_namesApart (h : NamesApart history) : (withCTypes.after history).TellsApart := by
  have hnamed : (withCTypes.after history).NamedBy (variableNames history) (functionNames history) :=
    withCTypes_namedBy.after h.declares
  constructor
  · intro v hv
    exact h.names _ (List.mem_append_left _ (List.mem_of_getElem? (hnamed.variableName hv)))
  · intro v w hv hw he
    have hindex := index_unique h.distinctVariables (he ▸ hnamed.variableName hv) (hnamed.variableName hw)
    cases v; cases w
    exact congrArg VarId.mk hindex
  · intro f hf
    exact h.names _ (List.mem_append_right _ (List.mem_of_getElem? (hnamed.functionName hf)))
  · intro f g hf hg he
    have hindex := index_unique h.distinctFunctions (he ▸ hnamed.functionName hf) (hnamed.functionName hg)
    cases f; cases g
    exact congrArg FuncId.mk hindex
  · exact fun t ht => hnamed.type ht
  · exact fun op hop => hnamed.operation hop

end Registry

end SeedCorpus
