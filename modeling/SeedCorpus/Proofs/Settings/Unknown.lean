/-
  Settings from text.

  A text in the form of a TOML document gives settings that overlay it, or an error, and an error exactly for a faulty
  document (`FilterConfig.ofText_overlays`).  Which settings these are depends on the fields alone
  (`FilterConfig.ofTable?_congr`): neither the order of keys and tables matters nor what is unknown.  There are two ways to say
  that two documents differ in nothing else.

  * **By their tables.** Without what is unknown, the one table is the other one rearranged (`SameFields.of_keptTable`).
  * **By their lines.** Without what is unknown, the lines of the one text are those of the other in another order, and the
    same commands are there at all (`SameFields.of_lines`).

  What is unknown of a table can be more than an entry of it: a header below it, or a key with dots.  That is why the paths
  that matter (`FilterConfig.matters`) are compared as a whole.
-/
import Mathlib
import SeedCorpus.Proofs.Settings.Overlay
import SeedCorpus.Proofs.Toml.Kept

namespace SeedCorpus

open SeedCorpus.Toml (Value Table Account Draft KeysOnce)

/-- A value that fits is the only one that is read in this way. -/
theorem FieldKind.Fits.eq {kind : FieldKind} {v w : Value} (h : kind.Fits v) (hvw : v.ReadAlike w) : v = w := by
  cases kind with
  | text =>
    obtain ⟨s, rfl⟩ := h
    exact ((w.text?_eq_some s).mp hvw.text.symm).symm
  | texts =>
    obtain ⟨l, rfl⟩ := h
    have hl : w.texts? = some l := hvw.texts.symm.trans ((Value.texts?_eq_some _ l).mpr rfl)
    exact ((w.texts?_eq_some l).mp hl).symm
  | integer =>
    obtain ⟨n, rfl⟩ := h
    exact ((w.integer?_eq_some n).mp hvw.integer.symm).symm
  | count =>
    obtain ⟨n, rfl⟩ := h
    exact ((w.integer?_eq_some n).mp hvw.integer.symm).symm

namespace FilterConfig

variable {doc doc' : Table} {c : FilterConfig}

/-! ## The same fields

Documents may have values in a field that cannot be told apart by any of the readers and that are still not equal, such as
two tables where a text should be.  So fields are compared by what is read (`Value.ReadAlike`), and that is equality as soon
as a value fits. -/

/-- Every field is read alike, and the same commands are there. -/
structure SameFields (doc doc' : Table) : Prop where
  alike : ∀ f ∈ fields, Option.Rel Value.ReadAlike ((Value.table doc).at? f.1) ((Value.table doc').at? f.1)
  present : ∀ key ∈ commands, doc.lookup key = none ↔ doc'.lookup key = none

theorem SameFields.symm (h : SameFields doc doc') : SameFields doc' doc where
  alike f hf := Toml.rel_imp (Toml.rel_turn (h.alike f hf)) fun _ _ hvw => hvw.symm
  present key hkey := (h.present key hkey).symm

/-- Where the values of a document fit, another one with the same fields has the same values. -/
theorem SameFields.at?_eq (h : SameFields doc doc') {f : List String × FieldKind} (hf : f ∈ fields)
    (hfits : ∀ v, (Value.table doc).at? f.1 = some v → f.2.Fits v) :
    (Value.table doc').at? f.1 = (Value.table doc).at? f.1 := by
  have hrel := h.alike f hf
  revert hrel hfits
  generalize (Value.table doc).at? f.1 = x
  generalize (Value.table doc').at? f.1 = y
  intro hfits hrel
  cases hrel with
  | none => rfl
  | some hvw => exact congrArg some ((hfits _ rfl).eq hvw).symm

/-- What overlays one document overlays the other: overlaying looks at fields only, and at which commands there are. -/
theorem SameFields.overlays (h : SameFields doc doc') (hc : c.Overlays doc) : c.Overlays doc' := by
  have hsame : ∀ f ∈ fields, (Value.table doc').at? f.1 = (Value.table doc).at? f.1 := fun f hf =>
    h.at?_eq hf (hc.fits f hf)
  obtain ⟨hextension, htables⟩ := forall_fields.mp hsame
  obtain ⟨hgates, hcommands⟩ := forall_tables.mp htables
  obtain ⟨hsingle, hsingles⟩ := List.forall_mem_cons.mp hc.single
  constructor
  case single =>
    refine List.forall_mem_cons.mpr ⟨?_, List.forall_mem_map.mpr fun f hf => ?_⟩
    · rw [hextension]
      exact hsingle
    · rw [hgates f hf]
      exact List.forall_mem_map.mp hsingles f hf
  case missing =>
    intro key hkey hnone
    exact hc.missing key hkey ((h.present key hkey).mpr hnone)
  case replaced =>
    intro key hkey hthere f hf
    rw [hcommands key hkey f hf]
    exact hc.replaced key hkey (fun hnone => hthere ((h.present key hkey).mp hnone)) f hf

/-- The settings depend on the fields alone. -/
theorem ofTable?_congr (hdoc : HoldsTables doc) (hdoc' : HoldsTables doc') (h : SameFields doc doc') :
    ofTable? doc = ofTable? doc' := by
  refine Option.ext fun c => ?_
  show ofTable? doc = some c ↔ ofTable? doc' = some c
  rw [ofTable?_eq_some_iff hdoc, ofTable?_eq_some_iff hdoc']
  exact ⟨h.overlays, h.symm.overlays⟩

/-! ## The paths that matter

A path matters if it lies on the way to a field or beyond one.  What lies beyond a field matters because it makes a table of
what should be a text. -/

/-- A path leads towards a field, or it starts with one. -/
def matters (path : List String) : Bool := fields.any fun f => path.isPrefixOf f.1 || f.1.isPrefixOf path

theorem matters_iff (path : List String) : matters path ↔ ∃ f ∈ fields, path <+: f.1 ∨ f.1 <+: path := by
  simp only [matters, List.any_eq_true, Bool.or_eq_true, List.isPrefixOf_iff_prefix]

/-- If a path matters, so does what it begins with. -/
theorem matters_of_append (path rest : List String) (h : matters (path ++ rest)) : matters path := by
  obtain ⟨f, hf, hbefore | hbehind⟩ := (matters_iff _).mp h
  · exact (matters_iff _).mpr ⟨f, hf, .inl ((List.prefix_append path rest).trans hbefore)⟩
  · -- both are at the front of one path, so one of them begins with the other
    refine (matters_iff _).mpr ⟨f, hf, ?_⟩
    exact (List.prefix_or_prefix_of_prefix hbehind (List.prefix_append path rest)).symm

/-- Everything beyond a field matters. -/
theorem matters_behind : ∀ f ∈ fields, ∀ rest, matters (f.1 ++ rest) := by
  intro f hf rest
  exact (matters_iff _).mpr ⟨f, hf, .inr (List.prefix_append f.1 rest)⟩

theorem matters_field {t : String × List (String × FieldKind)} (ht : t ∈ tables) {f : String × FieldKind} (hf : f ∈ t.2)
    (rest : List String) : matters ([t.1, f.1] ++ rest) :=
  (forall_fields.mp matters_behind).2 t ht f hf rest

theorem matters_table : ∀ t ∈ tables, matters [t.1] := by decide

/-! ## Tables

Here the documents are compared after they have been read.  No key occurs twice in a table, so the order of entries does not
change what is found. -/

theorem keys_of_tidy (h : (Value.table doc).Tidy) : KeysOnce doc := by
  cases h with
  | table hkeys => exact hkeys

theorem keys_of_lookup (h : (Value.table doc).Tidy) {key : String} {entries : Table}
    (hentries : doc.lookup key = some (.table entries)) : KeysOnce entries := by
  cases h with
  | table _ hvalues => exact keys_of_tidy (hvalues _ (Toml.mem_of_lookup hentries))

/-- If the entries that matter are the same up to order, the fields are read alike. -/
theorem readAlike_field {entries entries' : Table} {key field : String} (hkeys : KeysOnce entries) (hkeys' : KeysOnce entries')
    (hfield : matters [key, field])
    (h : ((Value.table entries).kept matters [key]).Rearranged ((Value.table entries').kept matters [key])) :
    Option.Rel Value.ReadAlike (entries.lookup field) (entries'.lookup field) := by
  have hrel := Value.Rearranged.lookup h (hkeys.filter _) (hkeys'.filter _) field
  rw [Toml.lookup_filter (fun _ => hfield), Toml.lookup_filter (fun _ => hfield)] at hrel
  exact Toml.rel_imp hrel fun _ _ h => h.readAlike

/-- Where two documents have the same table up to order and unknown entries, or none, they have the same fields. -/
theorem readAlike_fields (htidy : (Value.table doc).Tidy) (htidy' : (Value.table doc').Tidy) (hdoc : HoldsTables doc)
    (hdoc' : HoldsTables doc') {t : String × List (String × FieldKind)} (ht : t ∈ tables)
    (h : Option.Rel Value.Rearranged ((doc.lookup t.1).map (Value.kept matters [t.1]))
      ((doc'.lookup t.1).map (Value.kept matters [t.1]))) : ∀ f ∈ t.2,
    Option.Rel Value.ReadAlike ((Value.table doc).at? [t.1, f.1]) ((Value.table doc').at? [t.1, f.1]) := by
  intro f hf
  have hrel := Toml.rel_of_map h
  cases hv : doc.lookup t.1 with
  | none =>
    have hw : doc'.lookup t.1 = none := (Toml.rel_none hrel).mp hv
    rw [Value.at?_of_missing hv, Value.at?_of_missing hw]
    exact .none
  | some v =>
    rw [hv] at hrel
    obtain ⟨w, hw, hvw⟩ := Toml.exists_of_rel hrel
    obtain ⟨entries, rfl⟩ := hdoc t ht v hv
    obtain ⟨entries', rfl⟩ := hdoc' t ht w hw
    rw [Value.at?_of_lookup hv, Value.at?_of_lookup hw]
    exact readAlike_field (keys_of_lookup htidy hv) (keys_of_lookup htidy' hw) (matters_field ht hf []) hvw

/-- Two documents have the same fields if their tables, without what is unknown, are rearranged. -/
theorem SameFields.of_keptTable (htidy : (Value.table doc).Tidy) (htidy' : (Value.table doc').Tidy) (hdoc : HoldsTables doc)
    (hdoc' : HoldsTables doc')
    (h : (Value.table (Toml.keptTable matters doc)).Rearranged (.table (Toml.keptTable matters doc'))) :
    SameFields doc doc' := by
  have hlookup : ∀ key, matters [key] → Option.Rel Value.Rearranged ((doc.lookup key).map (Value.kept matters [key]))
      ((doc'.lookup key).map (Value.kept matters [key])) := by
    intro key hkey
    rw [← Toml.lookup_keptTable hkey, ← Toml.lookup_keptTable hkey]
    exact h.lookup ((keys_of_tidy htidy).keptTable matters) ((keys_of_tidy htidy').keptTable matters) key
  constructor
  case alike =>
    refine forall_fields.mpr ⟨?_, fun t ht => ?_⟩
    · show Option.Rel Value.ReadAlike ((Value.table doc).at? ["extension"]) ((Value.table doc').at? ["extension"])
      rw [Value.at?_single, Value.at?_single]
      exact Toml.rel_imp (Toml.rel_of_map (hlookup "extension" (by decide))) fun _ _ h => Value.readAlike_of_kept h
    · exact readAlike_fields htidy htidy' hdoc hdoc' ht (hlookup t.1 (matters_table t ht))
  case present =>
    intro key hkey
    exact Toml.rel_none (Toml.rel_of_map (hlookup key ((forall_tables.mp matters_table).2 key hkey)))

/-! ## Lines

Here the documents are compared line by line.  Each line says something of a path, and what the lines of two texts say of the
paths that matter is the same.  A field of a table may be given by a line below the header of its table, by one with dots in
the key, or by a table in braces.  The first two say it of the field, the last one of the table: so there are two cases
below. -/

/-- Below a key for which no value is given there is a table that stands for what is said there, if only for nothing. -/
theorem exists_below {t : Draft} {E : Account} (ht : t.Bears E) {key : String}
    (htable : ∀ v, (Toml.finishEntries t.entries).lookup key = some v → ∃ entries, v = .table entries)
    (hopen : (E.under key).Open) : ∃ below : Draft, below.Bears (E.under key) ∧ ∀ field,
      (Value.table (Toml.finishEntries t.entries)).at? [key, field] = (Toml.finishEntries below.entries).lookup field := by
  by_cases hspeaks : (E.under key).Speaks
  · obtain ⟨v, hv, -, hbelow⟩ := Toml.lookup_of_built ht hspeaks hopen
    obtain ⟨entries, rfl⟩ := htable v hv
    obtain ⟨below, rfl, hbears⟩ := hbelow entries rfl
    exact ⟨below, hbears, Value.at?_of_lookup hv⟩
  · refine ⟨{}, ?_, fun field => ?_⟩
    · rw [Account.eq_silence hspeaks]
      exact Draft.bears_empty false false
    · rw [Value.at?_of_missing (Toml.lookup_of_unsaid ht hspeaks)]
      rfl

/-- Fields below such a key are read alike if the same is said of them. -/
theorem readAlike_below {t t' : Draft} {E E' : Account} (ht : t.Bears E) (ht' : t'.Bears E') {key field : String}
    (htable : ∀ v, (Toml.finishEntries t.entries).lookup key = some v → ∃ entries, v = .table entries)
    (htable' : ∀ v, (Toml.finishEntries t'.entries).lookup key = some v → ∃ entries, v = .table entries)
    (hopen : (E.under key).Open) (hopen' : (E'.under key).Open)
    (hwithin : ((E.under key).under field).Within ((E'.under key).under field))
    (hwithin' : ((E'.under key).under field).Within ((E.under key).under field)) :
    Option.Rel Value.ReadAlike ((Value.table (Toml.finishEntries t.entries)).at? [key, field])
      ((Value.table (Toml.finishEntries t'.entries)).at? [key, field]) := by
  obtain ⟨below, hbelow, hat⟩ := exists_below ht htable hopen
  obtain ⟨below', hbelow', hat'⟩ := exists_below ht' htable' hopen'
  rw [hat field, hat' field]
  exact Toml.readAlike_lookup hbelow hbelow' hwithin hwithin'

/-- Two documents have the same fields if their lines, without what is unknown, are the same in any order, and if the same
commands are there. -/
theorem SameFields.of_lines {lines lines' : List Toml.Line} (hlines : Toml.tableOfLines lines = some doc)
    (hlines' : Toml.tableOfLines lines' = some doc') (htidy : (Value.table doc).Tidy) (htidy' : (Value.table doc').Tidy)
    (hdoc : HoldsTables doc) (hdoc' : HoldsTables doc') (h : Toml.LinesAlike matters Value.Rearranged lines lines')
    (hcommands : ∀ key ∈ commands, doc.lookup key = none ↔ doc'.lookup key = none) : SameFields doc doc' := by
  refine ⟨?_, hcommands⟩
  obtain ⟨t, ht, rfl⟩ := Toml.bears_of_tableOfLines hlines
  obtain ⟨t', ht', rfl⟩ := Toml.bears_of_tableOfLines hlines'
  -- each text says what the other one does, with values that are related one way or the other
  have hechoes := h.echoes matters_of_append
  have hechoes' := h.turn.echoes matters_of_append
  have hread : ∀ (path : List String) (v w : Value), (v.kept matters path).Rearranged (w.kept matters path) → v.ReadAlike w :=
    fun _ _ _ => Value.readAlike_of_kept
  have hread' : ∀ (path : List String) (v w : Value), (w.kept matters path).Rearranged (v.kept matters path) → v.ReadAlike w :=
    fun _ _ _ h => (Value.readAlike_of_kept h).symm
  refine forall_fields.mpr ⟨?_, fun u hu => ?_⟩
  · show Option.Rel Value.ReadAlike ((Value.table _).at? ["extension"]) ((Value.table _).at? ["extension"])
    rw [Value.at?_single, Value.at?_single]
    have hall : ∀ rest, matters ([] ++ ["extension"] ++ rest) := (forall_fields.mp matters_behind).1
    exact Toml.readAlike_lookup ht ht' ((hechoes.under _).within hall hread) ((hechoes'.under _).within hall hread')
  · obtain ⟨key, fields⟩ := u
    by_cases hopen : (Account.under (Toml.accountOfLines lines) key).Open
    · -- No value is given for the key in either text: the fields are compared one level further down.
      have hopen' : (Account.under (Toml.accountOfLines lines') key).Open := by
        intro w hw
        obtain ⟨said, hs, hrel⟩ := hechoes' [key] (some w) (matters_table _ hu) hw
        obtain ⟨v, rfl, -⟩ := Toml.exists_of_rel (Toml.rel_of_map hrel)
        exact hopen v hs
      intro f hf
      have hall : ∀ rest, matters ([] ++ [key] ++ [f.1] ++ rest) := matters_field hu hf
      exact readAlike_below ht ht' (hdoc _ hu) (hdoc' _ hu) hopen hopen'
        (((hechoes.under key).under f.1).within hall hread) (((hechoes'.under key).under f.1).within hall hread')
    · obtain ⟨v, hv⟩ : ∃ v, Toml.accountOfLines lines [key] (some v) := Classical.not_forall_not.mp hopen
      obtain ⟨said, hs, hrel⟩ := hechoes [key] (some v) (matters_table _ hu) hv
      obtain ⟨w, rfl, -⟩ := Toml.exists_of_rel (Toml.rel_of_map hrel)
      refine readAlike_fields htidy htidy' hdoc hdoc' hu ?_
      show Option.Rel Value.Rearranged (((Toml.finishEntries t.entries).lookup key).map _)
        (((Toml.finishEntries t'.entries).lookup key).map _)
      rw [Toml.lookup_of_given ht hv, Toml.lookup_of_given ht' hs]
      exact hrel

/-! ## Texts

It remains to go from texts to documents and to put both ways together. -/

/-- Two texts are documents that differ only in the order of keys and tables and in unknown ones: in their tables, or in their
lines. -/
inductive SameKnownPart (text text' : String) : Prop
  /-- Without what is unknown, the tables are rearranged. -/
  | tables {doc doc' : Table} (hdoc : Toml.parse text = some doc) (hdoc' : Toml.parse text' = some doc')
      (h : (Value.table (Toml.keptTable matters doc)).Rearranged (.table (Toml.keptTable matters doc')))
  /-- Without what is unknown, the lines are the same in any order. The same commands are there: a command that is not there
  cannot have unknown entries, for it would be there with them. -/
  | lines {lines lines' : List Toml.Line} {doc doc' : Table} (hlines : Toml.linesOf? text = some lines)
      (hlines' : Toml.linesOf? text' = some lines') (hdoc : Toml.parse text = some doc) (hdoc' : Toml.parse text' = some doc')
      (h : Toml.LinesAlike matters Value.Rearranged lines lines')
      (hcommands : ∀ key ∈ commands, doc.lookup key = none ↔ doc'.lookup key = none)

/-- Either way the documents have the same fields. -/
theorem SameKnownPart.sameFields {text text' : String} (h : SameKnownPart text text') (hparse : Toml.parse text = some doc)
    (hparse' : Toml.parse text' = some doc') (hdoc : HoldsTables doc) (hdoc' : HoldsTables doc') : SameFields doc doc' := by
  have htidy := Toml.tidy_of_parse hparse
  have htidy' := Toml.tidy_of_parse hparse'
  cases h with
  | tables h₀ h₀' h =>
    obtain rfl := Option.some.inj (h₀.symm.trans hparse)
    obtain rfl := Option.some.inj (h₀'.symm.trans hparse')
    exact .of_keptTable htidy htidy' hdoc hdoc' h
  | lines hlines hlines' h₀ h₀' h hcommands =>
    obtain rfl := Option.some.inj (h₀.symm.trans hparse)
    obtain rfl := Option.some.inj (h₀'.symm.trans hparse')
    rw [Toml.parse_eq, hlines, Option.bind_some] at hparse
    rw [Toml.parse_eq, hlines', Option.bind_some] at hparse'
    exact .of_lines hparse hparse' htidy htidy' hdoc hdoc' h hcommands

/-- Settings that are read from the document are those of the text. -/
theorem ofText_of_parse {text : String} (h : Toml.parse text = some doc) (hc : ofTable? doc = some c) :
    ofText text = .ok c := by
  rw [ofText, h, Option.bind_some, hc]

/-- A document from which none are read is an error. -/
theorem ofText_of_none {text : String} (h : Toml.parse text = some doc) (hc : ofTable? doc = none) :
    ofText text = .error .malformed := by
  rw [ofText, h, Option.bind_some, hc]

/-- **Settings are an overlay.** A document in which the gates and the commands are tables, where they are there, gives an error
exactly if it is faulty. Otherwise it gives settings that are the document over the defaults. Documents that differ only in
order and in what is unknown give the same. -/
theorem ofText_overlays {text : String} (hparse : Toml.parse text = some doc) (hdoc : HoldsTables doc) :
    ((∃ e, ofText text = .error e) ↔ Faulty doc) ∧
    (¬ Faulty doc → ∃ c, ofText text = .ok c ∧ c.Overlays doc) ∧
    ∀ text' doc', Toml.parse text' = some doc' → HoldsTables doc' → SameKnownPart text text' → ofText text' = ofText text := by
  have hsound : ¬ Faulty doc → ∃ c, ofText text = .ok c ∧ c.Overlays doc := by
    intro h
    obtain ⟨c, hc⟩ := (exists_overlays_iff hdoc).mpr h
    exact ⟨c, ofText_of_parse hparse ((ofTable?_eq_some_iff hdoc).mpr hc), hc⟩
  refine ⟨⟨?_, ?_⟩, hsound, ?_⟩
  · rintro ⟨e, he⟩
    apply Classical.byContradiction
    intro h
    obtain ⟨c, hc, -⟩ := hsound h
    rw [hc] at he
    cases he
  · intro h
    refine ⟨.malformed, ofText_of_none hparse (Option.eq_none_iff_forall_ne_some.mpr fun c hc => ?_)⟩
    exact (exists_overlays_iff hdoc).mp ⟨c, (ofTable?_eq_some_iff hdoc).mp hc⟩ h
  · intro text' doc' hparse' hdoc' hknown
    have hsame := ofTable?_congr hdoc hdoc' (hknown.sameFields hparse hparse' hdoc hdoc')
    rw [ofText, ofText, hparse, hparse', Option.bind_some, Option.bind_some, hsame]

/-- A text with the least length of the gates and with a compiler. -/
def plainText : String := "[gates]\nmin_length=5\n[compiler]\nprogram='c'\n"

/-- The same in another order, with a key and a table that are unknown. -/
def mixedText : String := "[compiler]\nz=2\nprogram='c'\n[y]\n[gates]\nmin_length=5\n"

/-- The lines of the plain text. -/
def plainLines : List Toml.Line :=
  [.header (.single [] "gates"), .assignment { path := [], key := "min_length", value := .integer 5 },
    .header (.single [] "compiler"), .assignment { path := [], key := "program", value := .text "c" }]

/-- The lines of the mixed text. -/
def mixedLines : List Toml.Line :=
  [.header (.single [] "compiler"), .assignment { path := [], key := "z", value := .integer 2 },
    .assignment { path := [], key := "program", value := .text "c" }, .header (.single [] "y"),
    .header (.single [] "gates"), .assignment { path := [], key := "min_length", value := .integer 5 }]

/-- The table of the plain text. -/
def plainTable : Table := [("compiler", .table [("program", .text "c")]), ("gates", .table [("min_length", .integer 5)])]

/-- The table of the mixed text. -/
def mixedTable : Table :=
  [("gates", .table [("min_length", .integer 5)]), ("y", .table []),
    ("compiler", .table [("program", .text "c"), ("z", .integer 2)])]

/-- Gates and a compiler, and no canonicalizer. -/
theorem holdsTables_of_lookup {gates compiler : Table} (hgates : doc.lookup "gates" = some (.table gates))
    (hcompiler : doc.lookup "compiler" = some (.table compiler)) (hcanonicalizer : doc.lookup "canonicalizer" = none) :
    HoldsTables doc := by
  refine forall_tables.mpr ⟨fun v hv => ?_, forall_commands.mpr ⟨fun v hv => ?_, fun v hv => ?_⟩⟩
  · exact ⟨gates, Option.some.inj (hv.symm.trans hgates)⟩
  · exact ⟨compiler, Option.some.inj (hv.symm.trans hcompiler)⟩
  · cases hcanonicalizer.symm.trans hv

theorem linesOf?_plainText : Toml.linesOf? plainText = some plainLines := by cbv

theorem linesOf?_mixedText : Toml.linesOf? mixedText = some mixedLines := by cbv

theorem parse_plainText : Toml.parse plainText = some plainTable := by
  rw [Toml.parse_eq, linesOf?_plainText]
  rfl

theorem parse_mixedText : Toml.parse mixedText = some mixedTable := by
  rw [Toml.parse_eq, linesOf?_mixedText]
  rfl

theorem plainTable_holdsTables : HoldsTables plainTable := holdsTables_of_lookup rfl rfl rfl

theorem mixedTable_holdsTables : HoldsTables mixedTable := holdsTables_of_lookup rfl rfl rfl

/-- The lines of the mixed text that matter are those of the plain text, the sections in the other order. -/
theorem mixedText_sameKnownPart : SameKnownPart plainText mixedText := by
  refine .lines linesOf?_plainText linesOf?_mixedText parse_plainText parse_mixedText ?_ ?_
  · exact .of_perm .refl rfl (List.Perm.swap _ _ [])
  · refine forall_commands.mpr ⟨?_, ?_⟩
    · exact iff_of_false (fun h => nomatch h) (fun h => nomatch h)
    · exact iff_of_true rfl rfl

/-- The settings of both: the compiler has none of the arguments of the default one. -/
def plainSettings : FilterConfig :=
  { gates := { minLength := 5 }, compiler := { program := "c", args := [], timeoutSecs := 30 } }

/-- The settings of the plain text are the document over the defaults, and those of the mixed text are the same. -/
theorem plainText_overlays :
    ofText plainText = .ok plainSettings ∧ plainSettings.Overlays plainTable ∧ ofText mixedText = .ok plainSettings := by
  obtain ⟨herror, hok, hsame⟩ := ofText_overlays parse_plainText plainTable_holdsTables
  have hplain : ofText plainText = .ok plainSettings := ofText_of_parse parse_plainText rfl
  have hsound : ¬ Faulty plainTable := by
    intro h
    obtain ⟨e, he⟩ := herror.mpr h
    rw [hplain] at he
    cases he
  obtain ⟨c, hc, hoverlays⟩ := hok hsound
  rw [hplain] at hc
  obtain rfl := Except.ok.inj hc
  refine ⟨hplain, hoverlays, ?_⟩
  rw [hsame mixedText mixedTable parse_mixedText mixedTable_holdsTables mixedText_sameKnownPart]
  exact hplain

end FilterConfig

end SeedCorpus
