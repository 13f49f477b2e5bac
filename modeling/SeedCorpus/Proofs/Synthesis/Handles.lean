/-
  What a registry gives out.

  Trees hold no names.  They refer to what a registry has given out (`Handle`): the symbol of a type, of an operation or of a
  name, the id of a variable or of a function.  A handle stands for a text (`Handle.text?`), by way of up to two look-ups.

  1. Acts change the meaning of keys and they change bodies, but whatever the registry knows lasts (`Registry.LastsIn`), act by
     act (`lastsIn_perform`) and over any history (`lastsIn_after`).
  2. So a handle that stands for a text stands for it for ever (`Handle.text?_lasts`).
  3. All that acts have given out stands for a text (`text?_of_issued`), if they began with a registry whose symbols are
     consistent, such as the empty one.

  `LastsIn` is weaker than `Grows`, which a run of one strategy needs: there the keys of types and operations must not change
  either.  Here any act may come, and registering a key again does change what it means; but the symbol that it stood for before
  keeps its text, and trees hold symbols, not keys.
-/
import SeedCorpus.Proofs.Synthesis.History

namespace SeedCorpus

/-! ## What lasts

The relation between an earlier and a later registry is shown to be reflexive and transitive, then for one act, and from
these for a history by induction. -/

/-- Interning keeps the texts of all symbols. -/
theorem SymbolTable.intern_keeps (t : SymbolTable) (text : String) : t.Keeps (t.intern text).2 := by
  unfold intern
  split
  · exact Keeps.refl t
  · exact insert_keeps t text

namespace Registry

/-- What the one registry knows lasts in the other: texts, variables and the heads of functions. -/
structure LastsIn (r r' : Registry) : Prop where
  /-- Symbols keep their texts. -/
  texts : r.symbols.Keeps r'.symbols
  /-- Variables stay. -/
  vars : ∀ v x, r.variableAt? v = some x → r'.variableAt? v = some x
  /-- Functions stay, with whatever body. -/
  functions : ∀ id f, r.functionAt? id = some f → ∃ body, r'.functionAt? id = some { f with body := body }

variable {r r' r'' : Registry} {act : Act}

theorem LastsIn.refl (r : Registry) : r.LastsIn r where
  texts := SymbolTable.Keeps.refl _
  vars _ _ h := h
  functions _ f h := ⟨f.body, h⟩

theorem LastsIn.trans (h : r.LastsIn r') (h' : r'.LastsIn r'') : r.LastsIn r'' where
  texts := h.texts.trans h'.texts
  vars v x hx := h'.vars v x (h.vars v x hx)
  functions id f hf := by
    obtain ⟨body, hf'⟩ := h.functions id f hf
    obtain ⟨body', hf''⟩ := h'.functions id _ hf'
    exact ⟨body', hf''⟩

/-- A variable that is declared stays what it is through every act. -/
theorem variableAt?_perform {v : VarId} {x : Variable} (h : r.variableAt? v = some x) (act : Act) :
    (r.perform act).variableAt? v = some x := by
  -- only one act touches the array of variables, and it puts something behind its end
  cases act with
  | declareVariable type name =>
    obtain ⟨hlt, hx⟩ := Array.getElem?_eq_some_iff.mp h
    show (r.vars.push _)[v.index]? = some x
    rw [Array.getElem?_push_lt hlt, hx]
  | _ => exact h

/-- What interning keeps true of a symbol table stays true through every act. -/
theorem symbols_perform (keeps : SymbolTable → Prop) (hintern : ∀ t text, keeps t → keeps (t.intern text).2)
    (h : keeps r.symbols) (act : Act) : keeps (r.perform act).symbols := by
  -- four acts intern one text each, and the fifth leaves the table alone
  cases act with
  | registerType key spelling => exact hintern r.symbols spelling h
  | registerOperation key sign => exact hintern r.symbols sign h
  | declareVariable type name => exact hintern r.symbols name h
  | declareFunction returnType name params => exact hintern r.symbols name h
  | setBody id body => exact h

/-- A symbol keeps its text through every act. -/
theorem keeps_perform (r : Registry) (act : Act) : r.symbols.Keeps (r.perform act).symbols :=
  symbols_perform r.symbols.Keeps (fun t text h => h.trans (t.intern_keeps text)) (SymbolTable.Keeps.refl r.symbols) act

/-- What a registry knows lasts through one act. -/
theorem lastsIn_perform (r : Registry) (act : Act) : r.LastsIn (r.perform act) :=
  ⟨r.keeps_perform act, fun _ _ h => variableAt?_perform h act, fun _ _ h => functionAt?_perform h act⟩

/-- What a registry knows lasts through any history. -/
theorem lastsIn_after (history : List Act) : ∀ r : Registry, r.LastsIn (r.after history) := by
  induction history with
  | nil => exact LastsIn.refl
  | cons act history ih => exact fun r => (r.lastsIn_perform act).trans (ih (r.perform act))

/-- The way back of the symbol table stays right through every act. -/
theorem consistent_perform (h : r.symbols.Consistent) (act : Act) : (r.perform act).symbols.Consistent :=
  symbols_perform SymbolTable.Consistent (fun _ text h => (SymbolTable.intern_spec h text).1) h act

/-- The acts that register the types and operations of generated programs. -/
def cActs : List Act :=
  cTypes.map (fun e => .registerType e.1 e.2) ++ cOperations.map fun e => .registerOperation e.1 e.2

/-- The registry that holds the types and operations of generated programs is reached from the empty one. -/
theorem withCTypes_eq : withCTypes = ({} : Registry).after cActs := rfl

end Registry

/-! ## Handles

What an act gives out is read off its definition (`issue`), and what a history gives out is put together act by act, each act
starting from the registry that the ones before it have left. -/

/-- What a registry gives out and a tree refers to. -/
inductive Handle where
  /-- A type or an operation, by the symbol of its spelling, or a name. -/
  | symbol (s : Symbol)
  /-- A variable. -/
  | var (v : VarId)
  /-- A function. -/
  | function (id : FuncId)
deriving DecidableEq, Repr

/-- The text that a handle stands for. -/
def Handle.text? (r : Registry) : Handle → Option String
  | .symbol s => r.symbols.text? s
  | .var v => (r.variableAt? v).bind fun x => r.symbols.text? x.name
  | .function id => (r.functionAt? id).bind fun f => r.symbols.text? f.name

namespace Registry

/-- What an act gives out. -/
def issue (r : Registry) : Act → List Handle
  | .registerType key spelling => [.symbol (r.registerType key spelling).1.spelling]
  | .registerOperation key sign => [.symbol (r.registerOperation key sign).1.sign]
  | .declareVariable type name => [.var (r.declareVariable type name).1, .symbol (r.symbols.intern name).1]
  | .declareFunction returnType name params =>
    [.function (r.declareFunction returnType name params).1, .symbol (r.symbols.intern name).1]
  | .setBody _ _ => []

/-- What acts give out, one after the other. -/
def issued (r : Registry) : List Act → List Handle
  | [] => []
  | act :: history => r.issue act ++ (r.perform act).issued history

variable {r r' : Registry} {h : Handle} {text : String}

/-- The text of a symbol that stands for a text. -/
theorem text_eq {s : Symbol} (h : (Handle.symbol s).text? r = some text) : r.text s = text :=
  SymbolTable.text_of_text? h

/-- The name of a variable is the text that its id stands for. -/
theorem variableName_eq {v : VarId} (h : (Handle.var v).text? r = some text) : r.variableName v = text := by
  obtain ⟨x, hx, hname⟩ := Option.bind_eq_some_iff.mp h
  rw [variableName, hx]
  exact SymbolTable.text_of_text? hname

/-- The name of a function is the text that its id stands for. -/
theorem functionName_eq {id : FuncId} (h : (Handle.function id).text? r = some text) : r.functionName id = text := by
  obtain ⟨f, hf, hname⟩ := Option.bind_eq_some_iff.mp h
  rw [functionName, hf]
  exact SymbolTable.text_of_text? hname

end Registry

section Handles

variable {r r' : Registry} {h : Handle} {text : String}

/-- A handle stands for its text as long as what the registry knows lasts. -/
theorem Handle.text?_lasts (hl : r.LastsIn r') (ht : h.text? r = some text) : h.text? r' = some text := by
  -- for symbols it is one look-up, for ids a second one behind it, and both last
  cases h with
  | symbol s => exact hl.texts s text ht
  | var v =>
    obtain ⟨x, hx, hname⟩ := Option.bind_eq_some_iff.mp ht
    exact Option.bind_eq_some_iff.mpr ⟨x, hl.vars v x hx, hl.texts _ _ hname⟩
  | function id =>
    obtain ⟨f, hf, hname⟩ := Option.bind_eq_some_iff.mp ht
    obtain ⟨body, hf'⟩ := hl.functions id f hf
    exact Option.bind_eq_some_iff.mpr ⟨_, hf', hl.texts _ _ hname⟩

/-- What an act gives out stands for a text at once. -/
theorem text?_of_issue (hc : r.symbols.Consistent) {act : Act} (hm : h ∈ r.issue act) :
    ∃ text, h.text? (r.perform act) = some text := by
  -- what an act gives out is named by the text that it interns, and consistency says that the symbol shows this text
  cases act with
  | registerType key spelling =>
    obtain rfl := List.mem_singleton.mp hm
    exact ⟨spelling, (SymbolTable.intern_spec hc spelling).2.2⟩
  | registerOperation key sign =>
    obtain rfl := List.mem_singleton.mp hm
    exact ⟨sign, (SymbolTable.intern_spec hc sign).2.2⟩
  | declareVariable type name =>
    have hname := (SymbolTable.intern_spec hc name).2.2
    rcases List.mem_cons.mp hm with rfl | hm
    · exact ⟨name, Option.bind_eq_some_iff.mpr ⟨_, Array.getElem?_push_size, hname⟩⟩
    · obtain rfl := List.mem_singleton.mp hm
      exact ⟨name, hname⟩
  | declareFunction returnType name params =>
    have hname := (SymbolTable.intern_spec hc name).2.2
    rcases List.mem_cons.mp hm with rfl | hm
    · exact ⟨name, Option.bind_eq_some_iff.mpr ⟨_, Array.getElem?_push_size, hname⟩⟩
    · obtain rfl := List.mem_singleton.mp hm
      exact ⟨name, hname⟩
  | setBody id body => cases hm

/-- What a registry has given out stands for a text. -/
theorem text?_of_issued (history : List Act) : ∀ {r : Registry}, r.symbols.Consistent → h ∈ r.issued history →
    ∃ text, h.text? (r.after history) = some text := by
  induction history with
  | nil => exact fun _ hm => nomatch hm
  -- what the first act gives out has to last through the others; the rest is given out by a registry that is consistent
  -- again
  | cons act history ih =>
    intro r hc hm
    rcases List.mem_append.mp hm with hm | hm
    · obtain ⟨text, ht⟩ := text?_of_issue hc hm
      exact ⟨text, Handle.text?_lasts (Registry.lastsIn_after history _) ht⟩
    · exact ih (Registry.consistent_perform hc act) hm

end Handles

end SeedCorpus
