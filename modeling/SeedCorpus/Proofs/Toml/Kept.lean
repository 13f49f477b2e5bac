/-
  Documents of which some paths matter.

  Whoever reads a document asks for the values of some paths.  What the document has elsewhere can be left out of its table
  (`keptTable`) and out of its lines (`Assignment.kept?`, `keptSection?`), and the order of what is left does not matter either
  (`LinesAlike`).

  1. **Echo.** Lines that are alike say the same of the paths that matter (`LinesAlike.echoes`).  This needs that a path
     matters as soon as one beyond it does: a header that is left out cannot hold an assignment that is kept.
  2. **Reading.** If the same is said of a key and of everything below it, the tables that bear these accounts are read alike
     at that key (`readAlike_lookup`).
-/
import SeedCorpus.Proofs.Toml.Accounts
import SeedCorpus.Proofs.Toml.Rearranged

namespace SeedCorpus.Toml

/-! ## What is kept

Leaving out is done in the table of a document, or in its lines.  A line is kept if its path matters, and what is kept of a
value is what matters of a table in braces. -/

section Kept

variable (matters : List String → Bool)

/-- The value at a path, without the entries of a table that do not matter. -/
def Value.kept (path : List String) : Value → Value
  | .table entries => .table (entries.filter fun e => matters (path ++ [e.1]))
  | v => v

/-- The entries of a document that matter, without those in them that do not. -/
def keptTable (doc : Table) : Table :=
  (doc.filter fun e => matters [e.1]).map fun e => (e.1, e.2.kept matters [e.1])

/-- The path that a header leads to. -/
def Header.target : Header → List String
  | .single path key => path ++ [key]
  | .element path key => path ++ [key]

/-- The path that an assignment leads to. -/
def Assignment.target (a : Assignment) : List String := a.path ++ [a.key]

/-- What matters of an assignment in the table of a path. -/
def Assignment.kept? (base : List String) (a : Assignment) : Option Assignment :=
  if matters (base ++ a.target) then some { a with value := a.value.kept matters (base ++ a.target) } else none

/-- What matters of a section. -/
def keptSection? (s : Header × List Assignment) : Option (Header × List Assignment) :=
  if matters s.1.target then some (s.1, s.2.filterMap (Assignment.kept? matters s.1.target)) else none

end Kept

section Tables

variable {matters : List String → Bool} {key : String}

theorem KeysOnce.keptTable {doc : Table} (h : KeysOnce doc) (matters : List String → Bool) :
    KeysOnce (keptTable matters doc) := by
  rw [KeysOnce, Toml.keptTable, List.map_map]
  exact h.filter _

/-- Under a key that matters is found what was there, without what does not matter in it. -/
theorem lookup_keptTable (hkey : matters [key]) (doc : Table) :
    (keptTable matters doc).lookup key = (doc.lookup key).map (Value.kept matters [key]) := by
  have hfilter : (doc.filter fun e => matters [e.1]).lookup key = doc.lookup key := lookup_filter (fun _ => hkey) doc
  rw [← hfilter, keptTable]
  induction doc.filter fun e => matters [e.1] with
  | nil => rfl
  | cons e entries ih =>
    rw [List.map_cons, List.lookup_cons, List.lookup_cons, ih]
    split
    · rename_i he
      rw [beq_iff_eq.mp he]
      rfl
    · rfl

end Tables

/-! ## Lines in another order

Lines are compared as they are grouped: assignments in front of the first header, then sections, each a header with its
assignments.  Assignments never leave their section, and sections change places as a whole. -/

/-- Assignments to the same key of related values. -/
structure Assignment.Alike (R : Value → Value → Prop) (a b : Assignment) : Prop where
  path : a.path = b.path
  key : a.key = b.key
  value : R a.value b.value

/-- Sections with the same header and with related assignments in any order. -/
structure SectionAlike (R : Value → Value → Prop) (s s' : Header × List Assignment) : Prop where
  header : s.1 = s'.1
  assignments : Multiset.Rel (Assignment.Alike R) (s.2 : Multiset Assignment) (s'.2 : Multiset Assignment)

/-- What matters of the lines is related, in any order of the sections and of the assignments in each. -/
structure LinesAlike (matters : List String → Bool) (R : Value → Value → Prop) (lines lines' : List Line) : Prop where
  front : Multiset.Rel (Assignment.Alike R)
    ((splitSections lines).1.filterMap (Assignment.kept? matters []) : Multiset Assignment)
    ((splitSections lines').1.filterMap (Assignment.kept? matters []) : Multiset Assignment)
  sections : Multiset.Rel (SectionAlike R)
    ((splitSections lines).2.filterMap (keptSection? matters) : Multiset (Header × List Assignment))
    ((splitSections lines').2.filterMap (keptSection? matters) : Multiset (Header × List Assignment))

section Order

variable {matters : List String → Bool} {R : Value → Value → Prop}

theorem Assignment.Alike.turn {a b : Assignment} (h : a.Alike R b) : b.Alike (flip R) a := ⟨h.path.symm, h.key.symm, h.value⟩

theorem assignmentsAlike_turn {s t : Multiset Assignment} (h : Multiset.Rel (Assignment.Alike R) s t) :
    Multiset.Rel (Assignment.Alike (flip R)) t s :=
  (Multiset.rel_flip.mpr h).mono fun _ _ _ _ h => h.turn

theorem SectionAlike.turn {s s' : Header × List Assignment} (h : SectionAlike R s s') : SectionAlike (flip R) s' s :=
  ⟨h.header.symm, assignmentsAlike_turn h.assignments⟩

/-- What matters of the lines is the same but for the order of the sections. -/
theorem LinesAlike.of_perm (hR : ∀ v, R v v) {lines lines' : List Line}
    (hfront : (splitSections lines).1.filterMap (Assignment.kept? matters []) =
      (splitSections lines').1.filterMap (Assignment.kept? matters []))
    (hsections : ((splitSections lines).2.filterMap (keptSection? matters)).Perm
      ((splitSections lines').2.filterMap (keptSection? matters))) : LinesAlike matters R lines lines' := by
  have halike : ∀ assignments : List Assignment,
      Multiset.Rel (Assignment.Alike R) (assignments : Multiset Assignment) (assignments : Multiset Assignment) :=
    fun _ => Multiset.rel_refl_of_refl_on fun a _ => ⟨rfl, rfl, hR a.value⟩
  constructor
  · rw [hfront]
    exact halike _
  · rw [Multiset.coe_eq_coe.mpr hsections]
    exact Multiset.rel_refl_of_refl_on fun s _ => ⟨rfl, halike s.2⟩

theorem LinesAlike.turn {lines lines' : List Line} (h : LinesAlike matters R lines lines') :
    LinesAlike matters (flip R) lines' lines :=
  ⟨assignmentsAlike_turn h.front, (Multiset.rel_flip.mpr h.sections).mono fun _ _ _ _ h => h.turn⟩

end Order

/-! ## Echoes

An echo goes one way: whatever is said of a path that matters is said on the other side as well.  Turning the lines gives the
way back. -/

section Echoes

variable {matters : List String → Bool} {R : Value → Value → Prop}

/-- What is said of a path that matters is echoed, with a related value if a value is given. -/
def Account.Echoes (matters : List String → Bool) (R : Value → Value → Prop) (base : List String) (E E' : Account) : Prop :=
  ∀ path said, matters (base ++ path) → E path said →
    ∃ said', E' path said' ∧
      Option.Rel R (said.map (Value.kept matters (base ++ path))) (said'.map (Value.kept matters (base ++ path)))

/-- Assignments that are alike, as far as they matter, echo each other. -/
theorem accountOf_echoes {base : List String} {assignments assignments' : List Assignment}
    (h : Multiset.Rel (Assignment.Alike R) (assignments.filterMap (Assignment.kept? matters base) : Multiset Assignment)
      (assignments'.filterMap (Assignment.kept? matters base) : Multiset Assignment)) :
    Account.Echoes matters R base (accountOf assignments) (accountOf assignments') := by
  rintro _ _ hmatters ⟨a, ha, _, rfl, rfl, rfl⟩
  rw [List.append_nil] at hmatters ⊢
  have hkept : a.kept? matters base = some { a with value := a.value.kept matters (base ++ a.target) } := if_pos hmatters
  -- the assignment is kept, so it has a partner among those that are kept on the other side, and that one is an assignment
  -- there
  obtain ⟨b, hb, halike⟩ := Multiset.exists_mem_of_rel_of_mem h (List.mem_filterMap.mpr ⟨a, ha, hkept⟩)
  obtain ⟨c, hc, hcb⟩ := List.mem_filterMap.mp hb
  obtain ⟨-, hcb⟩ := Option.ite_none_right_eq_some.mp hcb
  obtain rfl := Option.some.inj hcb
  have htarget : c.target = a.target := by
    rw [Assignment.target, Assignment.target, show a.path = c.path from halike.path, show a.key = c.key from halike.key]
  refine ⟨some c.value, ⟨c, hc, [], ?_, rfl, rfl⟩, ?_⟩
  · rw [List.append_nil]
    exact htarget.symm
  · have hvalue := halike.value
    rw [htarget] at hvalue
    exact .some hvalue

theorem accountOfSections_echoes (hmatters : ∀ path rest, matters (path ++ rest) → matters path)
    {sections sections' : List (Header × List Assignment)}
    (h : Multiset.Rel (SectionAlike R) (sections.filterMap (keptSection? matters) : Multiset (Header × List Assignment))
      (sections'.filterMap (keptSection? matters) : Multiset (Header × List Assignment))) :
    Account.Echoes matters R [] (accountOfSections sections) (accountOfSections sections') := by
  rintro path said hpath ⟨⟨header, assignments⟩, hs, hsaid⟩
  obtain ⟨rest, rfl⟩ : ∃ rest, path = header.target ++ rest := by
    cases header <;> exact hsaid.imp fun _ h => h.1
  -- the path of the header matters because it leads to one that does
  have hkept : keptSection? matters (header, assignments) =
      some (header, assignments.filterMap (Assignment.kept? matters header.target)) := if_pos (hmatters _ rest hpath)
  obtain ⟨s', hs', halike⟩ := Multiset.exists_mem_of_rel_of_mem h (List.mem_filterMap.mpr ⟨_, hs, hkept⟩)
  obtain ⟨⟨header', assignments'⟩, hmem, hkept'⟩ := List.mem_filterMap.mp hs'
  obtain ⟨-, hkept'⟩ := Option.ite_none_right_eq_some.mp hkept'
  obtain rfl := Option.some.inj hkept'
  obtain rfl : header = header' := halike.header
  cases header with
  | single path key =>
    obtain ⟨rest', hrest, hthere | hgiven⟩ := hsaid
    · obtain ⟨rfl, rfl⟩ := hthere
      exact ⟨none, ⟨_, hmem, [], hrest, .inl ⟨rfl, rfl⟩⟩, .none⟩
    · obtain rfl := List.append_cancel_left hrest
      obtain ⟨said', hsaid', hrel⟩ := accountOf_echoes halike.assignments rest said hpath hgiven
      exact ⟨said', ⟨_, hmem, rest, rfl, .inr hsaid'⟩, hrel⟩
  | element path key =>
    obtain ⟨rest', hrest, rfl, rfl⟩ := hsaid
    exact ⟨none, ⟨_, hmem, [], hrest, rfl, rfl⟩, .none⟩

/-- Of the paths that matter, lines that are alike say the same. -/
theorem LinesAlike.echoes (hmatters : ∀ path rest, matters (path ++ rest) → matters path) {lines lines' : List Line}
    (h : LinesAlike matters R lines lines') : Account.Echoes matters R [] (accountOfLines lines) (accountOfLines lines') := by
  rintro path said hpath (hfront | hsections)
  · obtain ⟨said', hsaid', hrel⟩ := accountOf_echoes h.front path said hpath hfront
    exact ⟨said', .inl hsaid', hrel⟩
  · obtain ⟨said', hsaid', hrel⟩ := accountOfSections_echoes hmatters h.sections path said hpath hsections
    exact ⟨said', .inr hsaid', hrel⟩

end Echoes

/-! ## Reading

Reading asks for texts and numbers only.  A table is read as none, whatever is in it, and this is why entries that do not
matter can be left out of it. -/

namespace Value

variable {u v w : Value}

theorem ReadAlike.refl (v : Value) : v.ReadAlike v := ⟨rfl, rfl, rfl⟩

theorem ReadAlike.symm (h : v.ReadAlike w) : w.ReadAlike v := ⟨h.text.symm, h.integer.symm, h.texts.symm⟩

theorem ReadAlike.trans (h : u.ReadAlike v) (h' : v.ReadAlike w) : u.ReadAlike w :=
  ⟨h.text.trans h'.text, h.integer.trans h'.integer, h.texts.trans h'.texts⟩

/-- A table is read as none, with whatever entries. -/
theorem kept_readAlike (matters : List String → Bool) (path : List String) (v : Value) : (v.kept matters path).ReadAlike v := by
  cases v with
  | table entries => exact ⟨rfl, rfl, rfl⟩
  | _ => exact .refl _

/-- Values are read alike if what matters of them is rearranged. -/
theorem readAlike_of_kept {matters : List String → Bool} {path : List String}
    (h : (v.kept matters path).Rearranged (w.kept matters path)) : v.ReadAlike w :=
  (v.kept_readAlike matters path).symm.trans (h.readAlike.trans (w.kept_readAlike matters path))

/-- Values are not all texts if there is a table among them. -/
theorem mapM_text?_of_table {entries : Table} {items : List Value} (h : .table entries ∈ items) :
    items.mapM Value.text? = none := by
  induction items with
  | nil => cases h
  | cons v items ih =>
    rw [List.mapM_cons]
    rcases List.mem_cons.mp h with rfl | h
    · rfl
    · rw [ih h]
      cases v.text? <;> rfl

/-- What headers build is read as none. -/
theorem IsBuilt.readAlike (hv : v.IsBuilt) (hw : w.IsBuilt) : v.ReadAlike w := by
  have hnone : ∀ {x : Value}, x.IsBuilt → x.text? = none ∧ x.integer? = none ∧ x.texts? = none := by
    intro x hx
    cases hx with
    | table => exact ⟨rfl, rfl, rfl⟩
    | tables h => exact ⟨rfl, rfl, mapM_text?_of_table h⟩
  obtain ⟨ht, hi, hl⟩ := hnone hv
  obtain ⟨ht', hi', hl'⟩ := hnone hw
  exact ⟨ht.trans ht'.symm, hi.trans hi'.symm, hl.trans hl'.symm⟩

end Value

/-- Everything that the one account says is said by the other, with a value that is read alike. -/
def Account.Within (E E' : Account) : Prop :=
  ∀ path said, E path said → ∃ said', E' path said' ∧ Option.Rel Value.ReadAlike said said'

/-- If something is said, something is said on the other side. -/
theorem Account.Within.speaks {E E' : Account} (h : E.Within E') (hs : E.Speaks) : E'.Speaks := by
  obtain ⟨path, said, hs⟩ := hs
  obtain ⟨said', hs', -⟩ := h path said hs
  exact ⟨path, said', hs'⟩

/-- If no value is given there, none is given here. -/
theorem Account.Within.isOpen {E E' : Account} (h : E'.Within E) (hopen : E.Open) : E'.Open := by
  intro v hv
  obtain ⟨said, hs, hrel⟩ := h [] (some v) hv
  cases hrel with
  | some _ => exact hopen _ hs

/-- What is echoed of everything behind a path is within, if values with related entries that matter are read alike. -/
theorem Account.Echoes.within {matters : List String → Bool} {R : Value → Value → Prop} {base : List String} {E E' : Account}
    (h : Account.Echoes matters R base E E') (hall : ∀ rest, matters (base ++ rest))
    (hread : ∀ (path : List String) (v w : Value), R (v.kept matters path) (w.kept matters path) → v.ReadAlike w) :
    E.Within E' := by
  intro path said hs
  obtain ⟨said', hs', hrel⟩ := h path said (hall path) hs
  exact ⟨said', hs', rel_imp (rel_of_map hrel) (hread _)⟩

/-- An echo below a path is one below each key there. -/
theorem Account.Echoes.under {matters : List String → Bool} {R : Value → Value → Prop} {base : List String} {E E' : Account}
    (h : Account.Echoes matters R base E E') (key : String) :
    Account.Echoes matters R (base ++ [key]) (E.under key) (E'.under key) := by
  intro path said hpath hs
  rw [List.append_assoc] at hpath ⊢
  exact h (key :: path) said hpath hs

/-- If the same is said of a key and of what is below it, the same is read there. -/
theorem readAlike_lookup {t t' : Draft} {E E' : Account} (h : t.Bears E) (h' : t'.Bears E') {key : String}
    (hwithin : (E.under key).Within (E'.under key)) (hwithin' : (E'.under key).Within (E.under key)) :
    Option.Rel Value.ReadAlike ((finishEntries t.entries).lookup key) ((finishEntries t'.entries).lookup key) := by
  by_cases hopen : (E.under key).Open
  · -- no value is given, so there are tables on both sides, or nothing on either
    by_cases hspeaks : (E.under key).Speaks
    · obtain ⟨v, hv, hbuilt, -⟩ := lookup_of_built h hspeaks hopen
      obtain ⟨w, hw, hbuilt', -⟩ := lookup_of_built h' (hwithin.speaks hspeaks) (hwithin'.isOpen hopen)
      rw [hv, hw]
      exact .some (hbuilt.readAlike hbuilt')
    · have hsilent : ¬ (E'.under key).Speaks := fun hs => hspeaks (hwithin'.speaks hs)
      rw [lookup_of_unsaid h hspeaks, lookup_of_unsaid h' hsilent]
      exact .none
  · obtain ⟨v, hv⟩ : ∃ v, E [key] (some v) := Classical.not_forall_not.mp hopen
    obtain ⟨said', hs', hrel⟩ := hwithin [] (some v) hv
    cases hrel with
    | some hvw =>
      rw [lookup_of_given h hv, lookup_of_given h' hs']
      exact .some hvw

end SeedCorpus.Toml
