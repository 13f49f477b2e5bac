/-
  The tables of a TOML document.

  A table is a list of entries, and of two entries with one key the second would be hidden.  There are no such two: no key
  occurs twice in any table of a document that is read (`tidy_of_parse`).

  1. Tables under construction keep their keys apart, whatever is put into them (`Draft.Tidy.put`) and however far down
     (`Draft.Tidy.descend`).
  2. So assignments and headers do (`Draft.Tidy.assign`, `Draft.Tidy.addSection`), if the values that are assigned are
     tidy themselves.
  3. Values that are read are tidy at every depth (`readValue_tidy`).
-/
import SeedCorpus.Toml.Parser

namespace SeedCorpus.Toml

/-! ## Keys

A table of entries is looked up from the front.  With no key twice, what is found is what is there, and the order does not
matter. -/

/-- No key occurs twice. -/
def KeysOnce {α : Type} (entries : List (String × α)) : Prop := (entries.map (·.1)).Nodup

section Keys

variable {α : Type} {entries : List (String × α)} {key : String} {a : α}

theorem mem_of_lookup (h : entries.lookup key = some a) : (key, a) ∈ entries := by
  obtain ⟨front, back, rfl, -⟩ := List.lookup_eq_some_iff.mp h
  exact List.mem_append_right _ List.mem_cons_self

/-- If no key occurs twice, an entry is found if and only if it is there. -/
theorem KeysOnce.lookup_eq_some (h : KeysOnce entries) : entries.lookup key = some a ↔ (key, a) ∈ entries := by
  refine ⟨mem_of_lookup, fun hm => ?_⟩
  induction entries with
  | nil => cases hm
  | cons e entries ih =>
    obtain ⟨hnew, hrest⟩ := List.nodup_cons.mp h
    rcases List.mem_cons.mp hm with rfl | hm
    · exact List.lookup_cons_self
    · have hne : (key == e.1) = false := by
        refine beq_false_of_ne ?_
        rintro rfl
        exact hnew (List.mem_map.mpr ⟨_, hm, rfl⟩)
      rw [List.lookup_cons, hne]
      exact ih hrest hm

theorem KeysOnce.filter (h : KeysOnce entries) (p : String × α → Bool) : KeysOnce (entries.filter p) :=
  h.sublist (List.filter_sublist.map _)

/-- What is filtered out hides nothing that is kept. -/
theorem lookup_filter {p : String × α → Bool} (hp : ∀ a, p (key, a) = true) (entries : List (String × α)) :
    (entries.filter p).lookup key = entries.lookup key := by
  induction entries with
  | nil => rfl
  | cons e entries ih =>
    by_cases he : key = e.1
    · subst he
      rw [List.filter_cons_of_pos (hp e.2), List.lookup_cons_self, List.lookup_cons_self]
    · have hne : (key == e.1) = false := beq_false_of_ne he
      rw [List.lookup_cons, hne, ← ih, List.filter_cons]
      split
      · rw [List.lookup_cons, hne]
      · rfl

end Keys

/-! ## Tidy values

Tidiness goes down to all depths, so it is an induction over values.  Values under construction have tables of their own, and
they are tidy in the same sense. -/

/-- No key occurs twice in a table, at any depth. -/
inductive Value.Tidy : Value → Prop
  | text (s : String) : Tidy (.text s)
  | integer (n : Int) : Tidy (.integer n)
  | float (written : String) : Tidy (.float written)
  | boolean (b : Bool) : Tidy (.boolean b)
  | moment (written : String) : Tidy (.moment written)
  | array {items : List Value} (h : ∀ v ∈ items, Tidy v) : Tidy (.array items)
  | table {entries : Table} (hkeys : KeysOnce entries) (h : ∀ e ∈ entries, Tidy e.2) : Tidy (.table entries)

/-- The same of a value under construction. -/
inductive Node.Tidy : Node → Prop
  | closed {v : Value} (h : v.Tidy) : Tidy (.closed v)
  | table {implied dotted : Bool} {entries : List (String × Node)} (hkeys : KeysOnce entries)
      (h : ∀ e ∈ entries, Tidy e.2) : Tidy (.table implied dotted entries)
  | tables {newest : List (String × Node)} {older : List (List (String × Node))}
      (hkeys : ∀ entries ∈ newest :: older, KeysOnce entries)
      (h : ∀ entries ∈ newest :: older, ∀ e ∈ entries, Tidy e.2) : Tidy (.tables newest older)

/-- Finishing a table finishes its nodes, one by one. -/
theorem finishEntries_eq (entries : List (String × Node)) :
    finishEntries entries = entries.map fun e => (e.1, e.2.toValue) := by
  induction entries with
  | nil => rfl
  | cons e entries ih =>
    rw [List.map_cons, ← ih]
    rfl

/-- Finishing an array finishes its tables, which were kept with the newest first. -/
theorem finishTables_eq (older : List (List (String × Node))) : ∀ later : List Value,
    finishTables later older = (older.map fun entries => .table (finishEntries entries)).reverse ++ later := by
  induction older with
  | nil =>
    intro later
    rfl
  | cons entries older ih =>
    intro later
    rw [List.map_cons, List.reverse_cons, List.append_assoc]
    exact ih _

theorem KeysOnce.finishEntries {entries : List (String × Node)} (h : KeysOnce entries) :
    KeysOnce (finishEntries entries) := by
  rw [KeysOnce, finishEntries_eq, List.map_map]
  exact h

/-- A table is tidy when it is finished if its nodes are. -/
theorem tidy_finishEntries {entries : List (String × Node)} (hkeys : KeysOnce entries)
    (h : ∀ e ∈ entries, e.2.toValue.Tidy) : (Value.table (finishEntries entries)).Tidy := by
  refine .table hkeys.finishEntries fun e he => ?_
  rw [finishEntries_eq] at he
  obtain ⟨n, hn, rfl⟩ := List.mem_map.mp he
  exact h n hn

/-- What is tidy under construction is tidy when it is finished. -/
theorem Node.Tidy.toValue {n : Node} (h : n.Tidy) : n.toValue.Tidy := by
  induction h with
  | closed h => exact h
  | table hkeys _ ih => exact tidy_finishEntries hkeys ih
  | @tables newest older hkeys _ ih =>
    show (Value.array (finishTables [.table (Toml.finishEntries newest)] older)).Tidy
    rw [finishTables_eq]
    refine .array fun v hv => ?_
    rcases List.mem_append.mp hv with hv | hv
    · obtain ⟨entries, he, rfl⟩ := List.mem_map.mp (List.mem_reverse.mp hv)
      have hmem : entries ∈ newest :: older := List.mem_cons_of_mem _ he
      exact tidy_finishEntries (hkeys entries hmem) (ih entries hmem)
    · obtain rfl := List.mem_singleton.mp hv
      exact tidy_finishEntries (hkeys newest List.mem_cons_self) (ih newest List.mem_cons_self)

/-! ## Tables under construction

There is one operation that puts an entry into a table (`Draft.put`), and one that goes down a path to the table to be
changed (`descend`). -/

namespace Draft

/-- No key occurs twice in a table, at any depth. -/
def Tidy (t : Draft) : Prop := t.toNode.Tidy

variable {t t' : Draft} {key : String} {n : Node} {dotted : Bool} {change : Draft → Option Draft}

/-- A table is tidy if its keys are apart and its nodes are tidy. -/
theorem tidy_iff : t.Tidy ↔ KeysOnce t.entries ∧ ∀ e ∈ t.entries, e.2.Tidy := by
  constructor
  · intro h
    cases h with
    | table hkeys h => exact ⟨hkeys, h⟩
  · rintro ⟨hkeys, h⟩
    exact .table hkeys h

theorem tidy_empty (implied dotted : Bool) : Tidy { implied, dotted } := .table List.nodup_nil fun _ he => nomatch he

/-- The other tables of an array are as they were, when the last one changes. -/
theorem tidy_tables {newest : List (String × Node)} {older : List (List (String × Node))} (h : (Node.tables newest older).Tidy)
    (ht : t.Tidy) : (Node.tables t.entries older).Tidy := by
  obtain ⟨hkeys, hnodes⟩ := tidy_iff.mp ht
  cases h with
  | tables hkeys' hnodes' =>
    refine .tables (List.forall_mem_cons.mpr ⟨hkeys, ?_⟩) (List.forall_mem_cons.mpr ⟨hnodes, ?_⟩)
    · exact (List.forall_mem_cons.mp hkeys').2
    · exact (List.forall_mem_cons.mp hnodes').2

/-- What is found in a tidy table is tidy. -/
theorem Tidy.of_get? (h : t.Tidy) (hn : t.get? key = some n) : n.Tidy := (tidy_iff.mp h).2 _ (mem_of_lookup hn)

/-- A tidy node can be put under any key; it takes the place of the one that was there. -/
theorem Tidy.put (h : t.Tidy) (hn : n.Tidy) (key : String) : (t.put key n).Tidy := by
  obtain ⟨hkeys, hnodes⟩ := tidy_iff.mp h
  refine tidy_iff.mpr ⟨List.nodup_cons.mpr ⟨?_, hkeys.filter _⟩, List.forall_mem_cons.mpr ⟨hn, fun e he => ?_⟩⟩
  · intro hm
    obtain ⟨e, he, hkey⟩ := List.mem_map.mp hm
    simpa [hkey] using (List.mem_filter.mp he).2
  · exact hnodes e (List.mem_filter.mp he).1

/-- One step down: the table below is new, or it is there as a table or as the last one of an array. -/
theorem descend_cons {rest : List String} (h : descend dotted change t (key :: rest) = some t') :
    ∃ start below, descend dotted change start rest = some below ∧
      ((t.get? key = none ∧ start = { implied := true, dotted } ∧ t' = t.put key below.toNode) ∨
       (t.get? key = some start.toNode ∧ t' = t.put key below.toNode) ∨
       ∃ older, t.get? key = some (.tables start.entries older) ∧ t' = t.put key (.tables below.entries older)) := by
  rw [descend] at h
  -- what stands under the key says which way the step goes
  cases hget : t.get? key with
  | none =>
    rw [hget] at h
    obtain ⟨below, hb, ht⟩ := Option.bind_eq_some_iff.mp h
    exact ⟨_, below, hb, .inl ⟨rfl, rfl, (Option.some.inj ht).symm⟩⟩
  | some n =>
    rw [hget] at h
    cases n with
    | closed v => cases h
    | table implied wasDotted entries =>
      dsimp only at h
      split at h
      · cases h
      · obtain ⟨below, hb, ht⟩ := Option.bind_eq_some_iff.mp h
        exact ⟨_, below, hb, .inr (.inl ⟨rfl, (Option.some.inj ht).symm⟩)⟩
    | tables newest older =>
      obtain ⟨below, hb, ht⟩ := Option.bind_eq_some_iff.mp h
      exact ⟨_, below, hb, .inr (.inr ⟨older, rfl, (Option.some.inj ht).symm⟩)⟩

/-- What keeps a table tidy can be done to any table below a tidy one. -/
theorem Tidy.descend (hchange : ∀ {t t' : Draft}, t.Tidy → change t = some t' → t'.Tidy) (path : List String) :
    ∀ {t t' : Draft}, t.Tidy → descend dotted change t path = some t' → t'.Tidy := by
  -- on the path, for every table: one step down is a tidy table again
  induction path with
  | nil => exact hchange
  | cons key rest ih =>
    intro t t' ht h
    obtain ⟨start, below, hb, ⟨-, rfl, rfl⟩ | ⟨hget, rfl⟩ | ⟨older, hget, rfl⟩⟩ := descend_cons h
    · exact ht.put (ih (tidy_empty true dotted) hb) key
    · exact ht.put (ih (t := start) (ht.of_get? hget) hb) key
    · have hnode := ht.of_get? hget
      have hstart : start.Tidy := by
        cases hnode with
        | tables hkeys hnodes =>
          exact tidy_iff.mpr ⟨hkeys _ List.mem_cons_self, hnodes _ List.mem_cons_self⟩
      exact ht.put (tidy_tables hnode (ih hstart hb)) key

/-! ## Assignments and headers

The changes are named here, and each has an equation that says when it succeeds and what it makes.  Accounts of tables use
the same equations. -/

variable {a : Assignment} {assignments : List Assignment} {path : List String}

/-- What an assignment does to the table that holds its key. -/
def close (a : Assignment) (t : Draft) : Option Draft :=
  if t.dotted = a.path.isEmpty || (t.get? a.key).isSome then none else some (t.put a.key (.closed a.value))

/-- What a header in single brackets does to the table that holds its key. -/
def openTable (key : String) (assignments : List Assignment) (t : Draft) : Option Draft := do
  let start : Draft ← match t.get? key with
    | none => some {}
    | some (.table true false entries) => some { entries }
    | some _ => none
  return t.put key (← start.assignAll assignments).toNode

/-- What a header in double brackets does to the table that holds its key. -/
def openElement (key : String) (assignments : List Assignment) (t : Draft) : Option Draft := do
  let older ← match t.get? key with
    | none => some []
    | some (.tables newest older) => some (newest :: older)
    | some _ => none
  let newest ← ({} : Draft).assignAll assignments
  return t.put key (.tables newest.entries older)

theorem assign_eq (t : Draft) (a : Assignment) : t.assign a = descend true (close a) t a.path := rfl

theorem addSection_single (t : Draft) (path : List String) (key : String) (assignments : List Assignment) :
    t.addSection (.single path key, assignments) = descend false (openTable key assignments) t path := rfl

theorem addSection_element (t : Draft) (path : List String) (key : String) (assignments : List Assignment) :
    t.addSection (.element path key, assignments) = descend false (openElement key assignments) t path := rfl

/-- A key is given once. -/
theorem close_eq_some (h : close a t = some t') : t.get? a.key = none ∧ t' = t.put a.key (.closed a.value) := by
  rw [close] at h
  split at h
  · cases h
  · rename_i hfree
    obtain ⟨-, hget⟩ : t.dotted ≠ a.path.isEmpty ∧ t.get? a.key = none := by simpa using hfree
    exact ⟨hget, (Option.some.inj h).symm⟩

/-- A header makes a table, or it completes one that was only passed through. -/
theorem openTable_eq_some (h : openTable key assignments t = some t') :
    ∃ start below : Draft, start.assignAll assignments = some below ∧ t' = t.put key below.toNode ∧
      ((t.get? key = none ∧ start = {}) ∨ t.get? key = some (.table true false start.entries)) := by
  rw [openTable] at h
  split at h
  · rename_i hget
    obtain ⟨start, hstart, h⟩ := Option.bind_eq_some_iff.mp h
    obtain ⟨below, hb, ht⟩ := Option.bind_eq_some_iff.mp h
    exact ⟨start, below, hb, (Option.some.inj ht).symm, .inl ⟨hget, (Option.some.inj hstart).symm⟩⟩
  · rename_i hget
    obtain ⟨start, hstart, h⟩ := Option.bind_eq_some_iff.mp h
    obtain ⟨below, hb, ht⟩ := Option.bind_eq_some_iff.mp h
    obtain rfl := Option.some.inj hstart
    exact ⟨_, below, hb, (Option.some.inj ht).symm, .inr hget⟩
  · cases h

/-- A header makes an array, or it adds a table to one. -/
theorem openElement_eq_some (h : openElement key assignments t = some t') :
    ∃ (newest : Draft) (older : List (List (String × Node))), ({} : Draft).assignAll assignments = some newest ∧
      t' = t.put key (.tables newest.entries older) ∧
      ((t.get? key = none ∧ older = []) ∨
        ∃ first others, t.get? key = some (.tables first others) ∧ older = first :: others) := by
  rw [openElement] at h
  split at h
  · rename_i hget
    obtain ⟨older, holder, h⟩ := Option.bind_eq_some_iff.mp h
    obtain ⟨newest, hnewest, ht⟩ := Option.bind_eq_some_iff.mp h
    exact ⟨newest, older, hnewest, (Option.some.inj ht).symm, .inl ⟨hget, (Option.some.inj holder).symm⟩⟩
  · rename_i first others hget
    obtain ⟨older, holder, h⟩ := Option.bind_eq_some_iff.mp h
    obtain ⟨newest, hnewest, ht⟩ := Option.bind_eq_some_iff.mp h
    exact ⟨newest, older, hnewest, (Option.some.inj ht).symm, .inr ⟨first, others, hget, (Option.some.inj holder).symm⟩⟩
  · cases h

/-- An assignment of a tidy value keeps a table tidy. -/
theorem Tidy.assign (ht : t.Tidy) (ha : a.value.Tidy) (h : t.assign a = some t') : t'.Tidy := by
  rw [assign_eq] at h
  refine Tidy.descend (fun {t t'} ht h => ?_) a.path ht h
  obtain ⟨-, rfl⟩ := close_eq_some h
  exact ht.put (.closed ha) a.key

theorem Tidy.assignAll : ∀ {assignments : List Assignment} {t t' : Draft}, t.Tidy → (∀ a ∈ assignments, a.value.Tidy) →
    t.assignAll assignments = some t' → t'.Tidy
  | [], _, _, ht, _, h => Option.some.inj h ▸ ht
  | _ :: _, _, _, ht, hall, h => by
    obtain ⟨ha, hrest⟩ := List.forall_mem_cons.mp hall
    obtain ⟨middle, hm, h⟩ := Option.bind_eq_some_iff.mp h
    exact (ht.assign ha hm).assignAll hrest h

theorem Tidy.addSection {header : Header} (ht : t.Tidy) (hall : ∀ a ∈ assignments, a.value.Tidy)
    (h : t.addSection (header, assignments) = some t') : t'.Tidy := by
  cases header with
  | single path key =>
    rw [addSection_single] at h
    refine Tidy.descend (fun {t t'} ht h => ?_) path ht h
    obtain ⟨start, below, hb, rfl, ⟨-, rfl⟩ | hget⟩ := openTable_eq_some h
    · exact ht.put ((tidy_empty false false).assignAll hall hb) key
    · have hstart : start.Tidy := by
        cases ht.of_get? hget with
        | table hkeys hnodes => exact tidy_iff.mpr ⟨hkeys, hnodes⟩
      exact ht.put (hstart.assignAll hall hb) key
  | element path key =>
    rw [addSection_element] at h
    refine Tidy.descend (fun {t t'} ht h => ?_) path ht h
    obtain ⟨newest, older, hn, rfl, hget⟩ := openElement_eq_some h
    have hnewest : newest.Tidy := (tidy_empty false false).assignAll hall hn
    refine ht.put ?_ key
    rcases hget with ⟨-, rfl⟩ | ⟨first, others, hget, rfl⟩
    · obtain ⟨hkeys, hnodes⟩ := tidy_iff.mp hnewest
      exact .tables (List.forall_mem_singleton.mpr hkeys) (List.forall_mem_singleton.mpr hnodes)
    · obtain ⟨hkeys, hnodes⟩ := tidy_iff.mp hnewest
      cases ht.of_get? hget with
      | tables hkeys' hnodes' =>
        exact .tables (List.forall_mem_cons.mpr ⟨hkeys, hkeys'⟩) (List.forall_mem_cons.mpr ⟨hnodes, hnodes'⟩)

theorem Tidy.addSections : ∀ {sections : List (Header × List Assignment)} {t t' : Draft}, t.Tidy →
    (∀ s ∈ sections, ∀ a ∈ s.2, a.value.Tidy) → sections.foldlM Draft.addSection t = some t' → t'.Tidy
  | [], _, _, ht, _, h => Option.some.inj h ▸ ht
  | _ :: _, _, _, ht, hall, h => by
    obtain ⟨hs, hrest⟩ := List.forall_mem_cons.mp hall
    obtain ⟨middle, hm, h⟩ := Option.bind_eq_some_iff.mp h
    exact (ht.addSection hs hm).addSections hrest h

end Draft

/-- A table in braces is tidy if its values are. -/
theorem tidy_tableOf {assignments : List Assignment} {v : Value} (hall : ∀ a ∈ assignments, a.value.Tidy)
    (h : tableOf assignments = some v) : v.Tidy := by
  obtain ⟨t, ht, rfl⟩ := Option.map_eq_some_iff.mp h
  exact Node.Tidy.toValue ((Draft.tidy_empty false false).assignAll hall ht)

/-! ## Values

A value is read by readers that are handed the reader of values one level further down.  So the lemmas on items and pairs ask
that this reader is right, and the induction on the depth comes last. -/

/-- A reader reads tidy values. -/
def ReadsTidy (value : Reader Value) : Prop := ∀ s v rest, value s = some (v, rest) → v.Tidy

/-- A word is read as a number, a truth value or a date, and all of these are tidy. -/
theorem readWord_tidy : ReadsTidy readWord := by
  intro s v rest h
  rw [readWord] at h
  -- each way to read a word gives a value without parts
  split at h
  · split at h
    · dsimp only at h
      split at h
      · obtain ⟨rfl, -⟩ := Prod.mk.inj (Option.some.inj h)
        exact .moment _
      · cases h
    · obtain ⟨rfl, -⟩ := Prod.mk.inj (Option.some.inj h)
      exact .moment _
  · split at h
    · obtain ⟨rfl, -⟩ := Prod.mk.inj (Option.some.inj h)
      exact .boolean true
    · split at h
      · obtain ⟨rfl, -⟩ := Prod.mk.inj (Option.some.inj h)
        exact .boolean false
      · split at h
        · obtain ⟨rfl, -⟩ := Prod.mk.inj (Option.some.inj h)
          exact .moment _
        · split at h
          · obtain ⟨rfl, -⟩ := Prod.mk.inj (Option.some.inj h)
            exact .float _
          · obtain ⟨n, -, hn⟩ := Option.map_eq_some_iff.mp h
            obtain ⟨rfl, -⟩ := Prod.mk.inj hn
            exact .integer n

/-- The items of an array are tidy if they are read by a reader of tidy values. -/
theorem tidy_of_readItems {item : Reader Value} (hitem : ReadsTidy item) (steps : Nat) :
    ∀ {s : List Char} {items : List Value} {rest : List Char}, readItems item steps s = some (items, rest) →
      ∀ v ∈ items, v.Tidy := by
  induction steps with
  | zero => exact fun h => nomatch h
  | succ steps ih =>
    intro s items rest h
    rw [readItems] at h
    split at h
    · obtain ⟨rfl, -⟩ := Prod.mk.inj (Option.some.inj h)
      exact fun v hv => nomatch hv
    · obtain ⟨⟨v, s'⟩, hv, h⟩ := Option.bind_eq_some_iff.mp h
      have hfirst : v.Tidy := hitem _ v s' hv
      dsimp only at h
      split at h
      · obtain ⟨⟨others, rest'⟩, hothers, h⟩ := Option.bind_eq_some_iff.mp h
        obtain ⟨rfl, -⟩ := Prod.mk.inj (Option.some.inj h)
        exact List.forall_mem_cons.mpr ⟨hfirst, ih hothers⟩
      · obtain ⟨rfl, -⟩ := Prod.mk.inj (Option.some.inj h)
        exact List.forall_mem_singleton.mpr hfirst
      · cases h

theorem tidy_of_readAssignment {value : Reader Value} (hvalue : ReadsTidy value) {s rest : List Char} {a : Assignment}
    (h : readAssignment value s = some (a, rest)) : a.value.Tidy := by
  obtain ⟨⟨parts, s'⟩, -, h⟩ := Option.bind_eq_some_iff.mp h
  dsimp only at h
  split at h
  · obtain ⟨⟨v, rest'⟩, hv, h⟩ := Option.bind_eq_some_iff.mp h
    obtain ⟨rfl, -⟩ := Prod.mk.inj (Option.some.inj h)
    exact hvalue _ v rest' hv
  · cases h

theorem tidy_of_readPairs {value : Reader Value} (hvalue : ReadsTidy value) (steps : Nat) :
    ∀ {s : List Char} {pairs : List Assignment} {rest : List Char}, readPairs value steps s = some (pairs, rest) →
      ∀ a ∈ pairs, a.value.Tidy := by
  induction steps with
  | zero => exact fun h => nomatch h
  | succ steps ih =>
    intro s pairs rest h
    obtain ⟨⟨a, s'⟩, ha, h⟩ := Option.bind_eq_some_iff.mp h
    have hfirst : a.value.Tidy := tidy_of_readAssignment hvalue ha
    dsimp only at h
    split at h
    · obtain ⟨⟨others, rest'⟩, hothers, h⟩ := Option.bind_eq_some_iff.mp h
      obtain ⟨rfl, -⟩ := Prod.mk.inj (Option.some.inj h)
      exact List.forall_mem_cons.mpr ⟨hfirst, ih hothers⟩
    · obtain ⟨rfl, -⟩ := Prod.mk.inj (Option.some.inj h)
      exact List.forall_mem_singleton.mpr hfirst
    · cases h

/-- A value is read by reading values of one level less. -/
theorem readsTidy_of_below {depth : Nat} (hbelow : ∀ d, depth = d + 1 → ReadsTidy (readValue d)) :
    ReadsTidy (readValue depth) := by
  intro s v rest h
  rw [readValue.eq_def] at h
  -- an array, a table in braces, or a value without parts
  split at h
  · split at h
    · cases h
    · obtain ⟨⟨items, rest'⟩, hitems, hv⟩ := Option.map_eq_some_iff.mp h
      obtain ⟨rfl, -⟩ := Prod.mk.inj hv
      exact .array (tidy_of_readItems (hbelow _ rfl) _ hitems)
  · split at h
    · cases h
    · obtain ⟨rfl, -⟩ := Prod.mk.inj (Option.some.inj h)
      exact .table List.nodup_nil fun e he => nomatch he
    · obtain ⟨⟨pairs, rest'⟩, hpairs, h⟩ := Option.bind_eq_some_iff.mp h
      obtain ⟨w, hw, h⟩ := Option.bind_eq_some_iff.mp h
      obtain ⟨rfl, -⟩ := Prod.mk.inj (Option.some.inj h)
      exact tidy_tableOf (tidy_of_readPairs (hbelow _ rfl) _ hpairs) hw
  · split at h
    · obtain ⟨t, -, hv⟩ := Option.map_eq_some_iff.mp h
      obtain ⟨rfl, -⟩ := Prod.mk.inj hv
      exact .text _
    · obtain ⟨t, -, hv⟩ := Option.map_eq_some_iff.mp h
      obtain ⟨rfl, -⟩ := Prod.mk.inj hv
      exact .text _
    · exact readWord_tidy s v rest h

/-- All values that are read are tidy, whatever the depth to which tables and arrays may go. -/
theorem readValue_tidy (depth : Nat) : ReadsTidy (readValue depth) := by
  induction depth with
  | zero => exact readsTidy_of_below fun d hd => nomatch hd
  | succ depth ih => exact readsTidy_of_below fun d hd => Nat.succ.inj hd ▸ ih

/-! ## Documents

A document is its lines, and the lines are grouped by headers. -/

/-- The lines of a document. -/
def linesOf? (text : String) : Option (List Line) :=
  readLines ((dropByteOrderMark text.toList).length + 1) (dropByteOrderMark text.toList)

theorem parse_eq (text : String) : parse text = (linesOf? text).bind tableOfLines := rfl

/-- The values that lines assign are tidy. -/
def TidyLines (lines : List Line) : Prop := ∀ a, .assignment a ∈ lines → a.value.Tidy

/-- The lines that are read assign tidy values. -/
theorem tidyLines_of_readLines (steps : Nat) : ∀ {s : List Char} {lines : List Line}, readLines steps s = some lines →
    TidyLines lines := by
  induction steps with
  | zero => exact fun h => nomatch h
  | succ steps ih =>
    intro s lines h
    rw [readLines] at h
    -- the end of the document, a header, or a line without one: empty or an assignment
    split at h
    · obtain rfl := Option.some.inj h
      exact fun a ha => nomatch ha
    · obtain ⟨⟨header, s'⟩, -, h⟩ := Option.bind_eq_some_iff.mp h
      obtain ⟨below, -, h⟩ := Option.bind_eq_some_iff.mp h
      obtain ⟨others, hothers, h⟩ := Option.bind_eq_some_iff.mp h
      obtain rfl := Option.some.inj h
      intro a ha
      rcases List.mem_cons.mp ha with ha | ha
      · cases ha
      · exact ih hothers a ha
    · split at h
      · obtain ⟨below, -, h⟩ := Option.bind_eq_some_iff.mp h
        exact ih h
      · obtain ⟨⟨a, s'⟩, hread, h⟩ := Option.bind_eq_some_iff.mp h
        obtain ⟨below, -, h⟩ := Option.bind_eq_some_iff.mp h
        obtain ⟨others, hothers, h⟩ := Option.bind_eq_some_iff.mp h
        obtain rfl := Option.some.inj h
        intro a' ha
        rcases List.mem_cons.mp ha with ha | ha
        · obtain rfl := Line.assignment.inj ha
          exact tidy_of_readAssignment (readValue_tidy maxDepth) hread
        · exact ih hothers a' ha

/-- The lines up to the next header and those of the sections are lines of the document. -/
theorem mem_splitSections : ∀ (lines : List Line) (a : Assignment),
    .assignment a ∈ lines ↔ a ∈ (splitSections lines).1 ∨ ∃ s ∈ (splitSections lines).2, a ∈ s.2
  | [], a => by simp [splitSections]
  | .assignment b :: rest, a => by
    have ih := mem_splitSections rest a
    simp [splitSections, ih, or_assoc]
  | .header h :: rest, a => by
    have ih := mem_splitSections rest a
    simp [splitSections, ih]

/-- No key occurs twice in a table of a document. -/
theorem tidy_of_parse {text : String} {doc : Table} (h : parse text = some doc) : (Value.table doc).Tidy := by
  rw [parse_eq] at h
  obtain ⟨lines, hlines, h⟩ := Option.bind_eq_some_iff.mp h
  have htidy : TidyLines lines := tidyLines_of_readLines _ hlines
  obtain ⟨root, hroot, h⟩ := Option.bind_eq_some_iff.mp h
  obtain ⟨whole, hwhole, h⟩ := Option.bind_eq_some_iff.mp h
  obtain rfl := Option.some.inj h
  have hfront : root.Tidy := by
    refine (Draft.tidy_empty false false).assignAll (fun a ha => htidy a ?_) hroot
    exact (mem_splitSections lines a).mpr (.inl ha)
  have hwhole : whole.Tidy := by
    refine hfront.addSections (fun s hs a ha => htidy a ?_) hwhole
    exact (mem_splitSections lines a).mpr (.inr ⟨s, hs, ha⟩)
  exact Node.Tidy.toValue hwhole

end SeedCorpus.Toml
