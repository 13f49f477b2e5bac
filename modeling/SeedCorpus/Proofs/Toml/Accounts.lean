/-
  What the lines of a TOML document say.

  Taken by itself, a line says that there is a value at the end of a path of keys, or that there is a table.  All that is said,
  in whatever order, is the account of the document (`accountOfLines`).  The table that the lines make bears this account: its
  entries can be read off what is said, and the order in which it is said does not matter (`lookup_of_given`,
  `lookup_of_unsaid`, `lookup_of_built`).

  1. **Invariant.** A table under construction bears an account (`Draft.Bears`): a value stands for one statement and no
     other; a table has entries for the keys that something is said about, and these bear what is said about them.
  2. **Step.** A change below some path adds what it says behind that path (`Draft.Bears.descend`).  So every assignment and
     every header adds what it says (`Draft.Bears.assign`, `Draft.Bears.addSection`), and so do all lines, one after the
     other (`bears_of_tableOfLines`).

  Nothing is tracked inside of arrays of tables, where the order does matter.
-/
import SeedCorpus.Proofs.Toml.Tables

namespace SeedCorpus.Toml

/-! ## Accounts

An account is a relation and no table, so that two things can be said of one path.  Accounts are added up (`plus`), moved
below a path (`behind`) and looked at below a key (`under`); the lemmas say how these go together. -/

/-- What is said of paths: that a value is there, or (with no value) that a table or an array of tables is. -/
abbrev Account := List String → Option Value → Prop

namespace Account

/-- Nothing is said. -/
def silence : Account := fun _ _ => False

/-- A value is given on the spot. -/
def given (v : Value) : Account := fun path said => path = [] ∧ said = some v

/-- There is a table on the spot. -/
def here : Account := fun path said => path = [] ∧ said = none

/-- What is said below a key. -/
def under (E : Account) (key : String) : Account := fun path said => E (key :: path) said

/-- The same behind a path. -/
def behind (path : List String) (E : Account) : Account := fun whole said => ∃ rest, whole = path ++ rest ∧ E rest said

/-- Both together. -/
def plus (E F : Account) : Account := fun path said => E path said ∨ F path said

/-- Something is said. -/
def Speaks (E : Account) : Prop := ∃ path said, E path said

/-- No value is given on the spot. -/
def Open (E : Account) : Prop := ∀ v, ¬ E [] (some v)

variable {E F G : Account} {key : String} {path : List String}

theorem ext (h : ∀ path said, E path said ↔ F path said) : E = F :=
  funext fun path => funext fun said => propext (h path said)

/-- Where nothing is said there is silence. -/
theorem eq_silence (h : ¬ E.Speaks) : E = silence := ext fun path said => iff_false_intro fun hs => h ⟨path, said, hs⟩

theorem plus_silence (E : Account) : E.plus silence = E := ext fun _ _ => iff_of_eq (or_false _)

theorem silence_plus (E : Account) : silence.plus E = E := ext fun _ _ => iff_of_eq (false_or _)

theorem plus_left_comm (E F G : Account) : E.plus (F.plus G) = F.plus (E.plus G) := ext fun _ _ => or_left_comm

theorem plus_assoc (E F G : Account) : (E.plus F).plus G = E.plus (F.plus G) := ext fun _ _ => or_assoc

/-- If neither account gives a value on the spot, both together do not. -/
theorem Open.plus (h : E.Open) (h' : F.Open) : (E.plus F).Open := fun v hs => hs.elim (h v) (h' v)

theorem Speaks.plus (h : F.Speaks) (E : Account) : (E.plus F).Speaks := by
  obtain ⟨path, said, hs⟩ := h
  exact ⟨path, said, .inr hs⟩

/-- Something is said behind a path if something is said. -/
theorem Speaks.behind (h : E.Speaks) (path : List String) : (behind path E).Speaks := by
  obtain ⟨rest, said, hs⟩ := h
  exact ⟨path ++ rest, said, rest, rfl, hs⟩

/-- What is said behind a key is not said on the spot. -/
theorem open_behind_cons (key : String) (path : List String) (E : Account) : (behind (key :: path) E).Open := by
  rintro v ⟨rest, hr, -⟩
  cases hr

theorem behind_nil (E : Account) : behind [] E = E := by
  refine ext fun path said => ⟨?_, fun h => ⟨path, rfl, h⟩⟩
  rintro ⟨rest, rfl, h⟩
  exact h

/-- Behind one path and then another is behind both. -/
theorem behind_behind (path rest : List String) (E : Account) : behind path (behind rest E) = behind (path ++ rest) E := by
  refine ext fun whole said => ⟨?_, ?_⟩
  · rintro ⟨_, rfl, q, rfl, h⟩
    exact ⟨q, (List.append_assoc ..).symm, h⟩
  · rintro ⟨q, rfl, h⟩
    exact ⟨rest ++ q, List.append_assoc .., q, rfl, h⟩

/-- No value is given on the spot, if none is where the path leads. -/
theorem Open.behind (h : E.Open) (path : List String) : (Account.behind path E).Open := by
  cases path with
  | nil =>
    rw [behind_nil]
    exact h
  | cons key path => exact open_behind_cons key path E

/-- What is said behind a key is said below that key, -/
theorem under_plus_behind_self (E F : Account) (key : String) : (E.plus (behind [key] F)).under key = (E.under key).plus F := by
  refine ext fun path said => or_congr_right ⟨?_, fun h => ⟨path, rfl, h⟩⟩
  rintro ⟨rest, hr, h⟩
  obtain rfl := (List.cons.inj hr).2
  exact h

/-- and not below another one. -/
theorem under_plus_behind_other {other : String} (hne : other ≠ key) (E F : Account) :
    (E.plus (behind [key] F)).under other = E.under other := by
  refine ext fun path said => or_iff_left ?_
  rintro ⟨rest, hr, -⟩
  exact hne (List.cons.inj hr).1

end Account

/-! ## What lines say

The account of lines has no order in it: it is that of the assignments in front of the first header together with those of
all sections. -/

/-- An assignment says that its value is there. -/
def Assignment.account (a : Assignment) : Account := .behind (a.path ++ [a.key]) (.given a.value)

/-- All that assignments say. -/
def accountOf (assignments : List Assignment) : Account := fun path said => ∃ a ∈ assignments, a.account path said

/-- A header says that there is a table, of which its assignments say more. What they say of the tables of an array is
left out. -/
def sectionAccount : Header × List Assignment → Account
  | (.single path key, assignments) => .behind (path ++ [key]) (Account.here.plus (accountOf assignments))
  | (.element path key, _) => .behind (path ++ [key]) .here

/-- All that sections say. -/
def accountOfSections (sections : List (Header × List Assignment)) : Account := fun path said =>
  ∃ s ∈ sections, sectionAccount s path said

/-- All that lines say. -/
def accountOfLines (lines : List Line) : Account :=
  (accountOf (splitSections lines).1).plus (accountOfSections (splitSections lines).2)

/-- One more assignment says what it says. -/
theorem accountOf_cons (a : Assignment) (assignments : List Assignment) :
    accountOf (a :: assignments) = a.account.plus (accountOf assignments) := by
  refine Account.ext fun path said => ?_
  simp only [accountOf, Account.plus, List.mem_cons, or_and_right, exists_or, exists_eq_left]

theorem accountOfSections_cons (s : Header × List Assignment) (sections : List (Header × List Assignment)) :
    accountOfSections (s :: sections) = (sectionAccount s).plus (accountOfSections sections) := by
  refine Account.ext fun path said => ?_
  simp only [accountOfSections, Account.plus, List.mem_cons, or_and_right, exists_or, exists_eq_left]

theorem accountOf_nil : accountOf [] = .silence := Account.ext fun _ _ => iff_false_intro fun ⟨_, ha, _⟩ => nomatch ha

theorem accountOfSections_nil : accountOfSections [] = .silence :=
  Account.ext fun _ _ => iff_false_intro fun ⟨_, hs, _⟩ => nomatch hs

/-! ## Tables that bear an account

A value is closed: it stands for one statement, and nothing can be said below it.  A table stands for what is said of its
keys, and for itself only by being there. -/

/-- A value under construction stands for what is said: a value for one statement, a table for what is said of its keys. -/
inductive Node.Bears : Node → Account → Prop
  | closed (v : Value) : Bears (.closed v) (.given v)
  | table {implied dotted : Bool} {entries : List (String × Node)} {E : Account} (hopen : E.Open) (hspeaks : E.Speaks)
      (hsome : ∀ key n, entries.lookup key = some n → Bears n (E.under key))
      (hnone : ∀ key, entries.lookup key = none → ¬ (E.under key).Speaks) : Bears (.table implied dotted entries) E
  | tables {newest : List (String × Node)} {older : List (List (String × Node))} {E : Account} (hopen : E.Open)
      (hspeaks : E.Speaks) : Bears (.tables newest older) E

namespace Draft

/-- A table under construction stands for what is said of its keys. -/
structure Bears (t : Draft) (E : Account) : Prop where
  /-- Nothing says that the table is a value. -/
  isOpen : E.Open
  /-- Entries stand for what is said of their keys. -/
  some : ∀ key n, t.get? key = some n → n.Bears (E.under key)
  /-- There is an entry for every key of which something is said. -/
  none : ∀ key, t.get? key = none → ¬ (E.under key).Speaks

variable {t t' : Draft} {E F : Account} {key : String} {n : Node} {dotted : Bool} {change : Draft → Option Draft}
variable {a : Assignment} {assignments : List Assignment}

/-- An empty table bears silence. -/
theorem bears_empty (implied dotted : Bool) : Bears { implied, dotted } .silence where
  isOpen _ h := h
  some _ _ h := nomatch h
  none _ _ h := h.elim fun _ h => h.elim fun _ h => h

/-- A draft of which something is said is a node that bears the same. -/
theorem Bears.toNode (h : t.Bears E) (hspeaks : E.Speaks) : t.toNode.Bears E := .table h.isOpen hspeaks h.some h.none

/-- A table that is taken up again bears what it did, whichever way it was opened. -/
theorem Bears.ofNode {implied dotted : Bool} {entries : List (String × Node)} (h : (Node.table implied dotted entries).Bears E)
    (implied' dotted' : Bool) : Bears { implied := implied', dotted := dotted', entries } E := by
  cases h with
  | table hopen _ hsome hnone => exact ⟨hopen, hsome, hnone⟩

/-- That there is a table says nothing of its keys. -/
theorem Bears.here_plus (h : t.Bears E) : t.Bears (Account.here.plus E) := by
  have hunder : ∀ key, (Account.here.plus E).under key = E.under key := fun key =>
    Account.ext fun path said => or_iff_right fun h => nomatch h.1
  refine ⟨fun v hv => hv.elim (fun h => nomatch h.2) (h.isOpen v), fun key n hget => ?_, fun key hget => ?_⟩
  · rw [hunder]
    exact h.some key n hget
  · rw [hunder]
    exact h.none key hget

/-- What is put under a key is found there, -/
theorem get?_put_self (t : Draft) (key : String) (n : Node) : (t.put key n).get? key = Option.some n := List.lookup_cons_self

/-- and under the others is found what was. -/
theorem get?_put_ne {other : String} (hne : other ≠ key) (t : Draft) (n : Node) : (t.put key n).get? other = t.get? other := by
  show ((key, n) :: t.entries.filter (·.1 ≠ key)).lookup other = t.entries.lookup other
  rw [List.lookup_cons, beq_false_of_ne hne]
  exact lookup_filter (fun _ => decide_eq_true hne) t.entries

/-- A node put under a key adds what is said behind that key. -/
theorem Bears.put (h : t.Bears E) (hn : n.Bears ((E.under key).plus F)) :
    (t.put key n).Bears (E.plus (.behind [key] F)) where
  isOpen := h.isOpen.plus (Account.open_behind_cons key [] F)
  -- the key itself, and the others
  some other m hget := by
    by_cases hk : other = key
    · subst hk
      rw [get?_put_self] at hget
      obtain rfl := Option.some.inj hget
      rw [Account.under_plus_behind_self]
      exact hn
    · rw [get?_put_ne hk] at hget
      rw [Account.under_plus_behind_other hk]
      exact h.some other m hget
  none other hget := by
    by_cases hk : other = key
    · subst hk
      rw [get?_put_self] at hget
      cases hget
    · rw [get?_put_ne hk] at hget
      rw [Account.under_plus_behind_other hk]
      exact h.none other hget

/-- What a change adds to a table it adds behind a path, if it is made there. -/
theorem Bears.descend (hopen : F.Open) (hspeaks : F.Speaks)
    (hchange : ∀ {t t' : Draft} {E : Account}, t.Bears E → change t = Option.some t' → t'.Bears (E.plus F))
    (path : List String) :
    ∀ {t t' : Draft} {E : Account}, t.Bears E → descend dotted change t path = Option.some t' →
      t'.Bears (E.plus (.behind path F)) := by
  -- on the path, for every table and account: one step down is a table again
  induction path with
  | nil =>
    intro t t' E ht h
    rw [Account.behind_nil]
    exact hchange ht h
  | cons key rest ih =>
    intro t t' E ht h
    have hsplit : Account.behind (key :: rest) F = .behind [key] (.behind rest F) := (Account.behind_behind [key] rest F).symm
    have hspeaks' : ((E.under key).plus (.behind rest F)).Speaks := (hspeaks.behind rest).plus _
    rw [hsplit]
    -- nothing has been said of the key, or it leads to a table, or to an array, where only the key itself is followed
    obtain ⟨start, below, hb, ⟨hget, rfl, rfl⟩ | ⟨hget, rfl⟩ | ⟨older, hget, rfl⟩⟩ := descend_cons h
    · have hsilent : E.under key = .silence := Account.eq_silence (ht.none key hget)
      refine ht.put (Bears.toNode ?_ hspeaks')
      rw [hsilent]
      exact ih (bears_empty true dotted) hb
    · have hstart : start.Bears (E.under key) := Bears.ofNode (ht.some key _ hget) start.implied start.dotted
      exact ht.put ((ih hstart hb).toNode hspeaks')
    · refine ht.put (.tables ?_ hspeaks')
      cases ht.some key _ hget with
      | tables hopen' _ => exact hopen'.plus (hopen.behind rest)

/-! ## Assignments and headers

Each of the three changes to a table is made where its path leads, so `Bears.descend` leaves the change itself to be looked
at. -/

/-- An assignment adds what it says. -/
theorem Bears.assign (ht : t.Bears E) (h : t.assign a = Option.some t') : t'.Bears (E.plus a.account) := by
  rw [assign_eq] at h
  rw [Assignment.account, ← Account.behind_behind]
  refine ht.descend (Account.open_behind_cons a.key [] _) ⟨[a.key], _, [], rfl, rfl, rfl⟩ (fun {t t' E} ht h => ?_) a.path h
  obtain ⟨hget, rfl⟩ := close_eq_some h
  have hsilent : E.under a.key = .silence := Account.eq_silence (ht.none a.key hget)
  refine ht.put ?_
  rw [hsilent, Account.silence_plus]
  exact .closed a.value

theorem Bears.assignAll : ∀ {assignments : List Assignment} {t t' : Draft} {E : Account}, t.Bears E →
    t.assignAll assignments = Option.some t' → t'.Bears (E.plus (accountOf assignments))
  | [], _, _, _, ht, h => by
    obtain rfl := Option.some.inj h
    rw [accountOf_nil, Account.plus_silence]
    exact ht
  | _ :: _, _, _, _, ht, h => by
    obtain ⟨middle, hm, h⟩ := Option.bind_eq_some_iff.mp h
    rw [accountOf_cons, ← Account.plus_assoc]
    exact (ht.assign hm).assignAll h

/-- A header adds that its table is there, and what its assignments say. -/
theorem Bears.addSection {s : Header × List Assignment} (ht : t.Bears E) (h : t.addSection s = Option.some t') :
    t'.Bears (E.plus (sectionAccount s)) := by
  obtain ⟨header, assignments⟩ := s
  have hthere : Account.here.Speaks := ⟨[], _, rfl, rfl⟩
  cases header with
  | single path key =>
    rw [addSection_single] at h
    have hspeaks : (Account.here.plus (accountOf assignments)).Speaks := ⟨[], _, .inl ⟨rfl, rfl⟩⟩
    rw [sectionAccount, ← Account.behind_behind]
    refine ht.descend (Account.open_behind_cons key [] _) (hspeaks.behind [key]) (fun {t t' E} ht h => ?_) path h
    obtain ⟨start, below, hb, rfl, hget⟩ := openTable_eq_some h
    -- what was said of a table that a header completes stays said
    have hstart : start.Bears (E.under key) := by
      rcases hget with ⟨hget, rfl⟩ | hget
      · rw [Account.eq_silence (ht.none key hget)]
        exact bears_empty false false
      · exact Bears.ofNode (ht.some key _ hget) start.implied start.dotted
    refine ht.put (Bears.toNode ?_ (hspeaks.plus _))
    rw [Account.plus_left_comm]
    exact (hstart.assignAll hb).here_plus
  | element path key =>
    rw [addSection_element] at h
    rw [sectionAccount, ← Account.behind_behind]
    refine ht.descend (Account.open_behind_cons key [] _) (hthere.behind [key]) (fun {t t' E} ht h => ?_) path h
    obtain ⟨newest, older, -, rfl, hget⟩ := openElement_eq_some h
    have hunder : (E.under key).Open := by
      rcases hget with ⟨hget, -⟩ | ⟨first, others, hget, -⟩
      · exact fun v hv => ht.none key hget ⟨_, _, hv⟩
      · cases ht.some key _ hget with
        | tables hopen _ => exact hopen
    exact ht.put (.tables (hunder.plus fun v hv => nomatch hv.2) (hthere.plus _))

theorem Bears.addSections : ∀ {sections : List (Header × List Assignment)} {t t' : Draft} {E : Account}, t.Bears E →
    sections.foldlM Draft.addSection t = Option.some t' → t'.Bears (E.plus (accountOfSections sections))
  | [], _, _, _, ht, h => by
    obtain rfl := Option.some.inj h
    rw [accountOfSections_nil, Account.plus_silence]
    exact ht
  | _ :: _, _, _, _, ht, h => by
    obtain ⟨middle, hm, h⟩ := Option.bind_eq_some_iff.mp h
    rw [accountOfSections_cons, ← Account.plus_assoc]
    exact (ht.addSection hm).addSections h

end Draft

/-- The table that lines make stands for what they say. -/
theorem bears_of_tableOfLines {lines : List Line} {doc : Table} (h : tableOfLines lines = some doc) :
    ∃ t : Draft, t.Bears (accountOfLines lines) ∧ doc = finishEntries t.entries := by
  obtain ⟨root, hroot, h⟩ := Option.bind_eq_some_iff.mp h
  obtain ⟨whole, hwhole, h⟩ := Option.bind_eq_some_iff.mp h
  have hfront := (Draft.bears_empty false false).assignAll hroot
  rw [Account.silence_plus] at hfront
  exact ⟨whole, hfront.addSections hwhole, (Option.some.inj h).symm⟩

/-! ## Reading off

What a finished table holds for a key depends on what is said of it, in three cases: a value is given, nothing is said, or
something is said below it. -/

/-- A table, or an array that holds one. -/
inductive Value.IsBuilt : Value → Prop
  | table (entries : Table) : IsBuilt (.table entries)
  | tables {entries : Table} {items : List Value} (h : .table entries ∈ items) : IsBuilt (.array items)

namespace Node

variable {n : Node} {E : Account}

/-- No node stands for silence. -/
theorem Bears.speaks (h : n.Bears E) : E.Speaks := by
  cases h with
  | closed v => exact ⟨[], _, rfl, rfl⟩
  | table _ hspeaks => exact hspeaks
  | tables _ hspeaks => exact hspeaks

/-- If a value is given on the spot, the node is that value. -/
theorem Bears.toValue_of_given {v : Value} (h : n.Bears E) (hv : E [] (some v)) : n.toValue = v := by
  cases h with
  | closed w => exact (Option.some.inj hv.2).symm
  | table hopen => exact absurd hv (hopen v)
  | tables hopen => exact absurd hv (hopen v)

/-- If none is given, the node was built by headers or by keys with dots. -/
theorem Bears.isBuilt (h : n.Bears E) (hopen : E.Open) : n.toValue.IsBuilt := by
  cases h with
  | closed v => exact absurd ⟨rfl, rfl⟩ (hopen v)
  | table => exact .table _
  | @tables newest older =>
    show (Value.array (finishTables [.table (finishEntries newest)] older)).IsBuilt
    rw [finishTables_eq]
    exact .tables (List.mem_append_right _ List.mem_cons_self)

/-- A built table is that of a draft that bears the same. -/
theorem Bears.exists_below {entries : Table} (h : n.Bears E) (hopen : E.Open) (hv : n.toValue = .table entries) :
    ∃ below : Draft, entries = finishEntries below.entries ∧ below.Bears E := by
  cases h with
  | closed v => exact absurd ⟨rfl, rfl⟩ (hopen v)
  | @table implied dotted nodes _ hopen hspeaks hsome hnone =>
    exact ⟨{ implied, dotted, entries := nodes }, (Value.table.inj hv).symm, hopen, hsome, hnone⟩
  | tables => cases hv

end Node

/-- Finishing a table finishes each of its nodes. -/
theorem lookup_finishEntries (entries : List (String × Node)) (key : String) :
    (finishEntries entries).lookup key = (entries.lookup key).map Node.toValue := by
  induction entries with
  | nil => rfl
  | cons e entries ih =>
    show ((e.1, e.2.toValue) :: finishEntries entries).lookup key = _
    rw [List.lookup_cons, List.lookup_cons, ih]
    split <;> rfl

section ReadingOff

variable {t : Draft} {E : Account} {key : String}

/-- What is given for a key is there. -/
theorem lookup_of_given {v : Value} (h : t.Bears E) (hv : E [key] (some v)) :
    (finishEntries t.entries).lookup key = some v := by
  rw [lookup_finishEntries]
  cases hget : t.entries.lookup key with
  | none => exact absurd ⟨[], _, hv⟩ (h.none key hget)
  | some n => exact congrArg some ((h.some key n hget).toValue_of_given hv)

/-- Nothing is there for a key of which nothing is said. -/
theorem lookup_of_unsaid (h : t.Bears E) (hunsaid : ¬ (E.under key).Speaks) : (finishEntries t.entries).lookup key = none := by
  rw [lookup_finishEntries]
  cases hget : t.entries.lookup key with
  | none => rfl
  | some n => exact absurd (h.some key n hget).speaks hunsaid

/-- If something is said of a key, but no value is given for it, a table is there that stands for what is said, or an array of
tables. -/
theorem lookup_of_built (h : t.Bears E) (hspeaks : (E.under key).Speaks) (hopen : (E.under key).Open) :
    ∃ v, (finishEntries t.entries).lookup key = some v ∧ v.IsBuilt ∧
      ∀ entries, v = .table entries → ∃ below : Draft, entries = finishEntries below.entries ∧ below.Bears (E.under key) := by
  rw [lookup_finishEntries]
  cases hget : t.entries.lookup key with
  | none => exact absurd hspeaks (h.none key hget)
  | some n =>
    have hn := h.some key n hget
    exact ⟨n.toValue, rfl, hn.isBuilt hopen, fun entries hv => hn.exists_below hopen hv⟩

end ReadingOff

end SeedCorpus.Toml
