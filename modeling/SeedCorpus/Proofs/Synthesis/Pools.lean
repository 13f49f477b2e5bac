/-
  Variables by type.

  A registry files its variables by type, and a type is known by the symbol of its spelling.  Types are asked for by key; a
  key can be registered again, and several keys can be spelled alike.  Nothing is ever taken back: a declaration adds a
  variable behind the others of its type, and a registration hides the one before it.

  1. **Symbols.**  Interning gives out one symbol for each text (`SymbolTable.Faithful`).
  2. **Filing.**  What a registry files under a type is the variables of that type, in order of declaration
     (`Registry.Filed`), and this is only ever added to (`variablesOf_after`).
  3. **Keys.**  The type under a key has the spelling of the last registration (`Registry.Spells`).  So two keys mean the
     same type if and only if they are spelled alike, and only then do they share what is filed (`sharePool_iff`).
  4. **Roles.**  The roles are the first variables of two types.  They stay once they are found, as long as the two keys are
     not given another spelling (`Roles.ofPools_grown`).

  Each of 1 to 3 is an invariant with two lemmas: what one act does (`…perform`), and, by induction on the history, what all
  acts do (`…_after`).  They are put together in `pools_part`.
-/
import SeedCorpus.Proofs.Synthesis.Handles
import SeedCorpus.Synthesis.Strategy

namespace SeedCorpus

/-- An entry in front hides those after it that have the same key. -/
theorem lookup_cons_eq {α β : Type} [DecidableEq α] (key k : α) (b : β) (l : List (α × β)) :
    ((k, b) :: l).lookup key = if key = k then some b else l.lookup key := by
  by_cases he : key = k
  · subst he
    rw [if_pos rfl, List.lookup_cons_self]
  · have hne : (key == k) = false := beq_false_of_ne he
    simp only [List.lookup_cons, hne, if_neg he]

/-! ## One symbol for each text

A table looks texts up in one list and gives out symbols as positions in another.  `Faithful` says that the two agree, in
both directions; it is what makes equal symbols mean equal spellings. -/

namespace SymbolTable

/-- A symbol is filed under a text if and only if the text is its own. -/
def Faithful (t : SymbolTable) : Prop := ∀ s text, t.lookup text = some s ↔ t.text? s = some text

variable {t : SymbolTable} {s : Symbol} {text : String}

/-- In the empty table there is neither. -/
theorem faithful_empty : Faithful {} := by
  intro s text
  constructor
  · intro h
    cases h
  · intro h
    cases h

/-- A fresh symbol is found for its text, and hides an older one. -/
theorem lookup_insert (t : SymbolTable) (text other : String) :
    (t.insert text).2.lookup other = if other = text then some ⟨t.size⟩ else t.lookup other :=
  lookup_cons_eq other text _ t.newest

/-- The fresh symbol is the next position, and the others keep their texts. -/
theorem text?_insert_eq (t : SymbolTable) (text : String) (s : Symbol) :
    (t.insert text).2.text? s = if s = ⟨t.size⟩ then some text else t.text? s := by
  show (t.texts.push text)[s.id]? = _
  rw [Array.getElem?_push]
  by_cases he : s.id = t.texts.size
  · have hs : s = ⟨t.size⟩ := by
      cases s
      exact congrArg Symbol.mk he
    rw [if_pos he, if_pos hs]
  · have hs : s ≠ ⟨t.size⟩ := by
      rintro rfl
      exact he rfl
    rw [if_neg he, if_neg hs]
    rfl

/-- The next position has no text yet. -/
theorem text?_size (t : SymbolTable) : t.text? ⟨t.size⟩ = none := Array.getElem?_size

/-- Interning keeps a table faithful and finds the text from then on. -/
theorem Faithful.intern (h : t.Faithful) (text : String) :
    (t.intern text).2.Faithful ∧ (t.intern text).2.lookup text = some (t.intern text).1 := by
  unfold SymbolTable.intern
  cases hl : t.lookup text with
  | some s => exact ⟨h, hl⟩
  | none =>
    refine ⟨?_, by rw [lookup_insert, if_pos rfl]; rfl⟩
    -- there was no symbol for the text: it is the fresh one now, and nothing else has changed
    intro s other
    rw [lookup_insert, text?_insert_eq]
    by_cases ho : other = text
    · subst ho
      rw [if_pos rfl]
      by_cases hs : s = ⟨t.size⟩
      · rw [if_pos hs, hs]
        exact iff_of_true rfl rfl
      · -- an older symbol would have been found
        rw [if_neg hs]
        constructor
        · intro he
          exact absurd (Option.some.inj he).symm hs
        · intro he
          have hfound := (h s other).mpr he
          rw [hl] at hfound
          cases hfound
    · rw [if_neg ho]
      by_cases hs : s = ⟨t.size⟩
      · subst hs
        rw [if_pos rfl, h, text?_size]
        constructor
        · intro he
          cases he
        · intro he
          exact absurd (Option.some.inj he).symm ho
      · rw [if_neg hs]
        exact h s other

/-- In a faithful table no text has two symbols. -/
theorem Faithful.symbol_unique (h : t.Faithful) {s' : Symbol} (hs : t.text? s = some text) (hs' : t.text? s' = some text) :
    s = s' := by
  have hfound := (h s text).mpr hs
  rw [(h s' text).mpr hs'] at hfound
  exact (Option.some.inj hfound).symm

/-- Interning a text that has a symbol gives out that symbol. -/
theorem intern_of_lookup (h : t.lookup text = some s) : t.intern text = (s, t) := by
  rw [intern, h]

end SymbolTable

/-- The type of the variable that an act declares. -/
def Act.declares? : Act → Option ValueType
  | .declareVariable type _ => some type
  | _ => none

/-- The spelling that is known for a key after an act. -/
def Act.spelling? (key : String) (known : Option String) : Act → Option String
  | .registerType other spelling => if key = other then some spelling else known
  | _ => known

/-- The spelling that was registered last for a key. -/
def lastSpelling (key : String) (history : List Act) : Option String := history.foldl (Act.spelling? key) none

namespace Registry

variable {r r' : Registry} {t u : ValueType} {v : VarId} {act : Act}

/-- Acts give out symbols by interning only. -/
theorem faithful_perform (h : r.symbols.Faithful) (act : Act) : (r.perform act).symbols.Faithful :=
  symbols_perform SymbolTable.Faithful (fun _ text h => (h.intern text).1) h act

/-! ## What is filed under a type

The variables of a type are filed in a list of their own.  What is said of it is that it could be computed from the variables
alone (`Filed`): these are told in order, and kept if they have the type. -/

/-- The variables, in order of declaration. -/
def declared (r : Registry) : List VarId := (List.range r.vars.size).map VarId.mk

/-- The type of a variable. -/
def typeAt? (r : Registry) (v : VarId) : Option ValueType := (r.variableAt? v).map (·.type)

/-- What is filed under each type is the variables of that type, in order of declaration. -/
def Filed (r : Registry) : Prop := ∀ t, r.variablesOf t = r.declared.filter fun v => r.typeAt? v = some t

/-- The variables that are declared are those that have a type. -/
theorem mem_declared : v ∈ r.declared ↔ ∃ t, r.typeAt? v = some t := by
  have hiff : v ∈ r.declared ↔ v.index < r.vars.size := by
    unfold declared
    rw [List.mem_map]
    constructor
    · rintro ⟨i, hi, rfl⟩
      exact List.mem_range.mp hi
    · intro h
      exact ⟨v.index, List.mem_range.mpr h, rfl⟩
  rw [hiff]
  constructor
  · intro h
    have hvar : r.variableAt? v = some r.vars[v.index] := Array.getElem?_eq_getElem h
    exact ⟨_, by rw [typeAt?, hvar, Option.map_some]⟩
  · rintro ⟨t, ht⟩
    obtain ⟨x, hx, -⟩ := Option.map_eq_some_iff.mp ht
    exact (Array.getElem?_eq_some_iff.mp hx).1

/-- A variable is filed under the type that it has and under no other. -/
theorem Filed.mem_variablesOf (h : r.Filed) : v ∈ r.variablesOf t ↔ v ∈ r.declared ∧ r.typeAt? v = some t := by
  rw [h t, List.mem_filter, decide_eq_true_eq]

/-- Every variable is declared once. -/
theorem nodup_declared (r : Registry) : r.declared.Nodup := by
  refine List.Pairwise.map VarId.mk ?_ List.nodup_range
  intro i j hne h
  exact hne (congrArg VarId.index h)

/-- A declaration adds to what is filed under its type. -/
theorem variablesOf_declareVariable (r : Registry) (t u : ValueType) (name : String) :
    (r.declareVariable t name).2.variablesOf u =
      if u = t then r.variablesOf t ++ [⟨r.vars.size⟩] else r.variablesOf u := by
  unfold declareVariable variablesOf
  rw [lookup_cons_eq]
  split <;> rfl

/-- The new variable has the type that it is declared with. -/
theorem typeAt?_declareVariable (r : Registry) (t : ValueType) (name : String) :
    (r.declareVariable t name).2.typeAt? ⟨r.vars.size⟩ = some t := by
  show ((r.vars.push _)[r.vars.size]?).map (·.type) = some t
  rw [Array.getElem?_push_size]
  rfl

/-- The new variable is the last one. -/
theorem declared_declareVariable (r : Registry) (t : ValueType) (name : String) :
    (r.declareVariable t name).2.declared = r.declared ++ [⟨r.vars.size⟩] := by
  show (List.range (r.vars.push _).size).map VarId.mk = _
  rw [Array.size_push, List.range_succ, List.map_append]
  rfl

/-- A declaration files the variable behind the others of its type, and files nothing else. -/
theorem Filed.declareVariable (h : r.Filed) (type : ValueType) (name : String) :
    (r.declareVariable type name).2.Filed := by
  intro t
  -- the other variables keep their types, so that they are filed where they were
  have hold : (r.declared.filter fun v => (r.declareVariable type name).2.typeAt? v = some t) = r.variablesOf t := by
    rw [h t]
    refine List.filter_congr fun v hv => ?_
    obtain ⟨u, hu⟩ := mem_declared.mp hv
    obtain ⟨x, hx, rfl⟩ := Option.map_eq_some_iff.mp hu
    have hkept : (r.declareVariable type name).2.variableAt? v = some x :=
      variableAt?_perform hx (.declareVariable type name)
    rw [typeAt?, typeAt?, hx, hkept]
  have hnew := typeAt?_declareVariable r type name
  rw [declared_declareVariable, List.filter_append, hold, variablesOf_declareVariable]
  -- and the new one is filed under its own type
  by_cases ht : t = type
  · subst ht
    rw [if_pos rfl, List.filter_cons_of_pos (by simpa using hnew), List.filter_nil]
  · have hother : ¬ (r.declareVariable type name).2.typeAt? ⟨r.vars.size⟩ = some t := by
      rw [hnew]
      intro he
      exact ht (Option.some.inj he).symm
    rw [if_neg ht, List.filter_cons_of_neg (by simpa using hother), List.filter_nil, List.append_nil]

/-- No act spoils what is filed. -/
theorem Filed.perform (h : r.Filed) (act : Act) : (r.perform act).Filed := by
  cases act with
  | declareVariable type name => exact h.declareVariable type name
  | _ => exact h

/-- What is filed is only ever added to. -/
theorem variablesOf_perform (r : Registry) (t : ValueType) (act : Act) : r.variablesOf t <+: (r.perform act).variablesOf t := by
  cases act with
  | declareVariable type name =>
    show r.variablesOf t <+: (r.declareVariable type name).2.variablesOf t
    rw [variablesOf_declareVariable]
    split
    · rename_i he
      rw [he]
      exact List.prefix_append _ _
    · exact List.prefix_refl _
  | _ => exact List.prefix_refl _

/-- Whatever is done later, what is filed is only added to. -/
theorem variablesOf_after (t : ValueType) (later : List Act) : ∀ r : Registry,
    r.variablesOf t <+: (r.after later).variablesOf t := by
  induction later with
  | nil =>
    intro r
    exact List.prefix_refl _
  | cons act later ih =>
    intro r
    exact (r.variablesOf_perform t act).trans (ih (r.perform act))

/-- The variables are those that acts have declared, one after the other. -/
theorem types_after (history : List Act) : ∀ r : Registry,
    (r.after history).vars.toList.map (·.type) = r.vars.toList.map (·.type) ++ history.filterMap Act.declares? := by
  induction history with
  | nil =>
    intro r
    exact (List.append_nil _).symm
  | cons act history ih =>
    intro r
    have hrest := ih (r.perform act)
    -- only a declaration adds a variable, and that one has the type that it declares
    cases act with
    | declareVariable type name =>
      have hpush : (r.perform (.declareVariable type name)).vars.toList.map (·.type) = r.vars.toList.map (·.type) ++ [type] := by
        show (r.vars.push _).toList.map (·.type) = _
        rw [Array.toList_push, List.map_append]
        rfl
      rw [hpush, List.append_assoc] at hrest
      exact hrest
    | _ => exact hrest

/-! ## Types by key

A key means whatever it was registered with last.  What `Spells` compares is the spelling, and not the type: it can be read
off the history, and the types follow as symbols are unique. -/

/-- The key means a type of this spelling, or no type if none is given. -/
def Spells (r : Registry) (key : String) (spelling : Option String) : Prop :=
  (r.types.lookup key).map (r.symbols.text? ·.spelling) = spelling.map some

/-- A key that has a spelling means a type with this spelling. -/
theorem spells_some {key spelling : String} :
    r.Spells key (some spelling) ↔ ∃ t, r.types.lookup key = some t ∧ r.symbols.text? t.spelling = some spelling := by
  rw [Spells, Option.map_some, Option.map_eq_some_iff]

/-- A key that has no spelling means nothing. -/
theorem spells_none {key : String} : r.Spells key none ↔ r.types.lookup key = none := by
  rw [Spells, Option.map_none, Option.map_eq_none_iff]

/-- A key goes on to mean what it means, if types stay under keys and symbols keep their texts. -/
theorem Spells.kept {key : String} {spelling : Option String} (h : r.Spells key spelling)
    (htypes : r'.types.lookup key = r.types.lookup key) (hkeeps : r.symbols.Keeps r'.symbols) : r'.Spells key spelling := by
  cases spelling with
  | none =>
    rw [spells_none, htypes]
    exact spells_none.mp h
  | some sp =>
    obtain ⟨t, ht, htext⟩ := spells_some.mp h
    exact spells_some.mpr ⟨t, htypes.trans ht, hkeeps _ _ htext⟩

/-- A registration is found under its key, and hides the one before it. -/
theorem lookup_registerType (r : Registry) (key other spelling : String) :
    (r.registerType other spelling).2.types.lookup key =
      if key = other then some ⟨(r.symbols.intern spelling).1⟩ else r.types.lookup key := lookup_cons_eq _ _ _ _

/-- Every act changes the meaning of keys as registrations say. -/
theorem Spells.perform (hf : r.symbols.Faithful) {key : String} {spelling : Option String} (h : r.Spells key spelling)
    (act : Act) : (r.perform act).Spells key (act.spelling? key spelling) := by
  have hkeeps := r.keeps_perform act
  -- only a registration changes what keys mean, and only for its own key
  cases act with
  | registerType other sp =>
    obtain ⟨hfaithful, hlookup⟩ := hf.intern sp
    have htypes := r.lookup_registerType key other sp
    by_cases he : key = other
    · have hsp : Act.spelling? key spelling (.registerType other sp) = some sp := if_pos he
      rw [if_pos he] at htypes
      rw [hsp]
      exact spells_some.mpr ⟨_, htypes, (hfaithful _ _).mp hlookup⟩
    · have hsp : Act.spelling? key spelling (.registerType other sp) = spelling := if_neg he
      rw [if_neg he] at htypes
      rw [hsp]
      exact h.kept htypes hkeeps
  | _ => exact h.kept rfl hkeeps

/-- A type that a key means has the spelling that the key was given. -/
theorem Spells.of_type {key : String} {spelling : Option String} (h : r.Spells key spelling) (ht : r.type key = .ok t) :
    ∃ sp, spelling = some sp ∧ r.symbols.text? t.spelling = some sp := by
  have hlookup := type_eq_ok.mp ht
  cases spelling with
  | none =>
    rw [spells_none, hlookup] at h
    cases h
  | some sp =>
    obtain ⟨t', ht', htext⟩ := spells_some.mp h
    obtain rfl := Option.some.inj (hlookup.symm.trans ht')
    exact ⟨sp, rfl, htext⟩

/-- A key that is not given another spelling means the same type later. -/
theorem lookup_after (key : String) (later : List Act) : ∀ {r : Registry} {t : ValueType} {spelling : String},
    r.symbols.Faithful → r.types.lookup key = some t → r.symbols.text? t.spelling = some spelling →
      (∀ sp, .registerType key sp ∈ later → sp = spelling) → (r.after later).types.lookup key = some t := by
  induction later with
  | nil =>
    intro r t spelling _ ht _ _
    exact ht
  | cons act later ih =>
    intro r t spelling hf ht htext hsame
    have hkept := (r.keeps_perform act) _ _ htext
    refine ih (faithful_perform hf act) ?_ hkept fun sp hsp => hsame sp (List.mem_cons_of_mem _ hsp)
    cases act with
    | registerType other sp =>
      rw [perform, lookup_registerType]
      by_cases he : key = other
      · subst he
        obtain rfl := hsame sp List.mem_cons_self
        -- the spelling has a symbol already
        rw [if_pos rfl, SymbolTable.intern_of_lookup ((hf _ _).mpr htext)]
      · rw [if_neg he]
        exact ht
    | _ => exact ht

/-- Two types share what is filed under them, whatever is declared later. -/
def SharePool (r : Registry) (t u : ValueType) : Prop := ∀ later, (r.after later).variablesOf t = (r.after later).variablesOf u

theorem sharePool_iff_eq : r.SharePool t u ↔ t = u := by
  constructor
  · -- types that share what is filed share it after one more declaration, too
    intro h
    by_cases he : u = t
    · exact he.symm
    · -- a new variable of the one type is filed under that type only
      have hnow : r.variablesOf t = r.variablesOf u := h []
      have hnext : (r.declareVariable t "").2.variablesOf t = (r.declareVariable t "").2.variablesOf u :=
        h [.declareVariable t ""]
      rw [variablesOf_declareVariable, variablesOf_declareVariable, if_pos rfl, if_neg he, ← hnow] at hnext
      have hlength := congrArg List.length hnext
      simp at hlength
  · rintro rfl later
    rfl

/-- Types share what is filed under them if and only if they are spelled alike. -/
theorem sharePool_iff (hf : r.symbols.Faithful) {a b : String} (ht : r.symbols.text? t.spelling = some a)
    (hu : r.symbols.text? u.spelling = some b) : r.SharePool t u ↔ a = b := by
  rw [sharePool_iff_eq]
  constructor
  · rintro rfl
    exact Option.some.inj (ht.symm.trans hu)
  · rintro rfl
    cases t
    cases u
    exact congrArg ValueType.mk (hf.symbol_unique ht hu)

/-! ## After acts

The invariants at the end of a history, each by induction on it. -/

/-- After acts there is still one symbol for each text. -/
theorem faithful_after (history : List Act) : ∀ {r : Registry}, r.symbols.Faithful → (r.after history).symbols.Faithful := by
  induction history with
  | nil =>
    intro r h
    exact h
  | cons act history ih =>
    intro r h
    exact ih (faithful_perform h act)

/-- After acts it is still the variables of a type that are filed under it. -/
theorem filed_after (history : List Act) : ∀ {r : Registry}, r.Filed → (r.after history).Filed := by
  induction history with
  | nil =>
    intro r h
    exact h
  | cons act history ih =>
    intro r h
    exact ih (h.perform act)

/-- After acts a key has the spelling that was registered last. -/
theorem spells_after (key : String) (history : List Act) : ∀ {r : Registry} {spelling : Option String},
    r.symbols.Faithful → r.Spells key spelling → (r.after history).Spells key (history.foldl (Act.spelling? key) spelling) := by
  induction history with
  | nil =>
    intro r spelling _ h
    exact h
  | cons act history ih =>
    intro r spelling hf h
    exact ih (faithful_perform hf act) (h.perform hf act)

end Registry

/-! ## Roles

Three roles are looked for among the variables of one type, by position, and one among those of another. -/

section Roles

variable {r r' : Registry} {roles : Roles}

/-- The roles are found if and only if both types are known and there are three variables of the first. -/
theorem Roles.ofPools_eq_ok : Roles.ofPools r = .ok roles ↔ ∃ int array, r.type "int" = .ok int ∧ r.type "array" = .ok array ∧
    (r.variablesOf int)[0]? = some roles.arg ∧ (r.variablesOf int)[1]? = some roles.sum ∧
    (r.variablesOf int)[2]? = some roles.counter ∧ roles.arr = (r.variablesOf array)[0]? := by
  simp only [ofPools, except_bind_eq_ok, List.head?_eq_getElem?]
  constructor
  · -- what is asked for by position is given as it stands in the pool
    rintro ⟨int, hint, arg, harg, sum, hsum, counter, hcounter, array, harray, heq⟩
    cases heq
    refine ⟨int, array, hint, harray, ?_, ?_, ?_, rfl⟩
    · split at harg
      · rename_i hfound
        rw [hfound, Except.ok.inj harg]
      · cases harg
    · split at hsum
      · rename_i hfound
        rw [hfound, Except.ok.inj hsum]
      · cases hsum
    · split at hcounter
      · rename_i hfound
        rw [hfound, Except.ok.inj hcounter]
      · cases hcounter
  · -- the other way round, every question is answered with what stands there
    rintro ⟨int, array, hint, harray, harg, hsum, hcounter, harr⟩
    refine ⟨int, hint, roles.arg, by rw [harg], roles.sum, by rw [hsum], roles.counter, by rw [hcounter], array, harray, ?_⟩
    rw [← harr]
    rfl

/-- What stands at a position of a list stands there in every longer one. -/
theorem getElem?_of_prefix {α : Type} {l l' : List α} (h : l <+: l') {i : Nat} {a : α} (ha : l[i]? = some a) :
    l'[i]? = some a := by
  obtain ⟨hi, rfl⟩ := List.getElem?_eq_some_iff.mp ha
  exact List.prefix_iff_getElem?.mp h i hi

/-- The roles stay, as long as the types do and what is filed under them is only added to. -/
theorem Roles.ofPools_grown (h : Roles.ofPools r = .ok roles) (hgrown : ∀ t, r.variablesOf t <+: r'.variablesOf t)
    (htypes : ∀ key ∈ ["int", "array"], ∀ t, r.type key = .ok t → r'.type key = .ok t) :
    ∃ roles', Roles.ofPools r' = .ok roles' ∧ roles'.arg = roles.arg ∧ roles'.sum = roles.sum ∧
      roles'.counter = roles.counter ∧ ∀ a, roles.arr = some a → roles'.arr = some a := by
  obtain ⟨int, array, hint, harray, harg, hsum, hcounter, harr⟩ := ofPools_eq_ok.mp h
  have hint' := htypes "int" List.mem_cons_self int hint
  have harray' := htypes "array" (List.mem_cons_of_mem _ List.mem_cons_self) array harray
  -- the types are the same, and the positions are taken in longer lists
  refine ⟨{ roles with arr := (r'.variablesOf array)[0]? }, ofPools_eq_ok.mpr ⟨int, array, hint', harray',
    getElem?_of_prefix (hgrown int) harg, getElem?_of_prefix (hgrown int) hsum,
    getElem?_of_prefix (hgrown int) hcounter, rfl⟩, rfl, rfl, rfl, ?_⟩
  intro a ha
  exact getElem?_of_prefix (hgrown array) (harr.symm.trans ha)

end Roles

/-! ## Pools

A registry starts from nothing, or with the declarations that generated programs begin with.  The second is a case of the
first (`Registry.MadeBy.eq`), with these declarations at the front of the history. -/

/-- Acts have made the registry from nothing, or from what generated programs begin with. -/
def Registry.MadeBy (r : Registry) (history : List Act) : Prop :=
  r = ({} : Registry).after history ∨ ∃ own, history = cActs ++ own ∧ r = withCTypes.after own

/-- Either way the registry is made from nothing. -/
theorem Registry.MadeBy.eq {r : Registry} {history : List Act} (h : r.MadeBy history) : r = ({} : Registry).after history := by
  rcases h with h | ⟨own, rfl, h⟩
  · exact h
  · rw [h, after_append, ← withCTypes_eq]

/-- **Pools part the variables, and roles stay.**  In every registry that acts have made, what is filed under a type is the
variables of that type in order of declaration, each once, and every variable is filed under exactly one type.  A key means
the spelling that was registered last, and the types of two keys share what is filed if and only if these are the same.
Later acts only add to what is filed; so the roles stay once they are found, unless one of their two keys is given another
spelling. -/
theorem pools_part (history later : List Act) (r r' : Registry) (hmade : r.MadeBy history) (hr' : r' = r.after later) :
    r.vars.toList.map (·.type) = history.filterMap Act.declares? ∧
    (∀ t, r.variablesOf t = r.declared.filter (fun v => r.typeAt? v = some t) ∧ (r.variablesOf t).Nodup) ∧
    (∀ v ∈ r.declared, ∃ t, v ∈ r.variablesOf t ∧ ∀ u, v ∈ r.variablesOf u → u = t) ∧
    (∀ key, r.Spells key (lastSpelling key history)) ∧
    (∀ a b t u, r.type a = .ok t → r.type b = .ok u →
      (r.SharePool t u ↔ lastSpelling a history = lastSpelling b history)) ∧
    (∀ t, r.variablesOf t <+: r'.variablesOf t) ∧
    ∀ roles, Roles.ofPools r = .ok roles →
      (∀ key ∈ ["int", "array"], ∀ sp, .registerType key sp ∈ later → lastSpelling key history = some sp) →
      ∃ roles', Roles.ofPools r' = .ok roles' ∧ roles'.arg = roles.arg ∧ roles'.sum = roles.sum ∧
        roles'.counter = roles.counter ∧ ∀ a, roles.arr = some a → roles'.arr = some a := by
  have hr := hmade.eq
  have hfaithful : r.symbols.Faithful := hr ▸ Registry.faithful_after history SymbolTable.faithful_empty
  have hfiled : r.Filed := hr ▸ Registry.filed_after history fun _ => rfl
  have hspells : ∀ key, r.Spells key (lastSpelling key history) := by
    intro key
    rw [hr]
    exact Registry.spells_after key history SymbolTable.faithful_empty rfl
  -- a type that is registered has the spelling that its key was given last
  have hspelled : ∀ key t, r.type key = .ok t → ∃ sp, lastSpelling key history = some sp ∧
      r.symbols.text? t.spelling = some sp := fun key t => (hspells key).of_type
  have hgrown : ∀ t, r.variablesOf t <+: r'.variablesOf t := fun t => hr' ▸ Registry.variablesOf_after t later r
  refine ⟨?_, fun t => ⟨hfiled t, ?_⟩, fun v hv => ?_, hspells, fun a b t u ht hu => ?_, hgrown, fun roles hroles hsame => ?_⟩
  · rw [hr, Registry.types_after]
    rfl
  · rw [hfiled t]
    exact r.nodup_declared.filter _
  · obtain ⟨t, ht⟩ := Registry.mem_declared.mp hv
    refine ⟨t, hfiled.mem_variablesOf.mpr ⟨hv, ht⟩, fun u hu => ?_⟩
    exact Option.some.inj ((hfiled.mem_variablesOf.mp hu).2.symm.trans ht)
  · obtain ⟨sp, hsp, htext⟩ := hspelled a t ht
    obtain ⟨sp', hsp', htext'⟩ := hspelled b u hu
    rw [Registry.sharePool_iff hfaithful htext htext', hsp, hsp']
    exact Option.some_inj.symm
  · refine Roles.ofPools_grown hroles hgrown fun key hkey t ht => ?_
    obtain ⟨sp, hsp, htext⟩ := hspelled key t ht
    rw [hr', Registry.type_eq_ok]
    refine Registry.lookup_after key later hfaithful (Registry.type_eq_ok.mp ht) htext fun sp' hsp' => ?_
    exact Option.some.inj ((hsame key hkey sp' hsp').symm.trans hsp)

open SeedCorpus.Registry (cActs withCTypes)

/-- The three variables of the roles, under a type that has a second key. -/
def rolesDeclared : List Act :=
  [.registerType "number" "int", .declareVariable intType "arg", .declareVariable intType "sum", .declareVariable intType "i"]

/-- The second key comes to mean something else, and there are more variables, one of them under a name that is used. -/
def moreDeclared : List Act :=
  [.registerType "int" "int", .registerType "number" "long", .declareVariable ⟨⟨1⟩⟩ "arr", .declareVariable intType "sum",
    .setBody ⟨0⟩ []]

theorem rolesDeclared_pools :
    (withCTypes.after rolesDeclared).MadeBy (cActs ++ rolesDeclared) ∧
    (withCTypes.after rolesDeclared).variablesOf intType = [⟨0⟩, ⟨1⟩, ⟨2⟩] ∧
    ¬ (withCTypes.after rolesDeclared).SharePool intType ⟨⟨1⟩⟩ ∧
    ∃ roles', Roles.ofPools ((withCTypes.after rolesDeclared).after moreDeclared) = .ok roles' ∧
      roles'.arg = ⟨0⟩ ∧ roles'.sum = ⟨1⟩ ∧ roles'.counter = ⟨2⟩ := by
  have hmade : (withCTypes.after rolesDeclared).MadeBy (cActs ++ rolesDeclared) := Or.inr ⟨_, rfl, rfl⟩
  obtain ⟨-, hfiled, -, -, hshare, -, hroles⟩ := pools_part _ moreDeclared _ _ hmade rfl
  have hsame : ∀ key ∈ ["int", "array"], ∀ sp, .registerType key sp ∈ moreDeclared →
      lastSpelling key (cActs ++ rolesDeclared) = some sp := by
    intro key hkey sp hsp
    simp only [moreDeclared, List.mem_cons, Act.registerType.injEq, reduceCtorEq, List.not_mem_nil, or_false] at hsp
    rcases hsp with ⟨rfl, rfl⟩ | ⟨rfl, rfl⟩
    · rfl
    · exact absurd hkey (by decide)
  obtain ⟨roles', hroles', harg, hsum, hcounter, -⟩ := hroles { arg := ⟨0⟩, sum := ⟨1⟩, counter := ⟨2⟩, arr := none } rfl hsame
  refine ⟨hmade, (hfiled intType).1.trans rfl, ?_, roles', hroles', harg, hsum, hcounter⟩
  rw [hshare "int" "array" intType ⟨⟨1⟩⟩ rfl rfl]
  decide

end SeedCorpus
