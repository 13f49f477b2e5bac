/-
  Settings laid over the defaults.

  The settings of a filter are compared with the document that they are read from by writing them as a table
  (`FilterConfig.toTable`).

  1. **Fields.** A field is found at a path of keys, and values of one kind fit into it (`FilterConfig.fields`).  Reading
     undoes writing (`Record.read_eq_some`), so a field that is read has the value of the document or its default.
  2. **Tables.** The gates are the entries of their table over the default ones (`Gates.ofValue?_table`).  A command is the
     entries of its table over those of `Command.unset`, which knows no program (`Command.ofValue?_table`): nothing is left of
     the default command.
  3. **Documents.** Settings are read from a document exactly if they overlay it (`FilterConfig.ofTable?_eq_some_iff`), and
     there are such settings exactly if the document has no fault (`FilterConfig.exists_overlays_iff`).
-/
import SeedCorpus.Filter.Settings

namespace SeedCorpus

open SeedCorpus.Toml (Value Table Record)

/-! ## Reading and writing

A value is read as a text, as a number or as texts.  Each of the readers is undone by a constructor, so from `decode v = some
a` the value itself is known, and two documents can be compared by their values where programs compare them by what is read. -/

namespace Toml

section Plain

variable {v : Value}

/-- Only a text is read as a text. -/
theorem Value.text?_eq_some (v : Value) (s : String) : v.text? = some s ↔ v = .text s := by
  cases v <;> simp [Value.text?]

theorem Value.integer?_eq_some (v : Value) (n : Int) : v.integer? = some n ↔ v = .integer n := by
  cases v <;> simp [Value.integer?]

/-- Only an integer that is not negative is read as a count. -/
theorem Value.count?_eq_some (v : Value) (n : Nat) : v.count? = some n ↔ v = .integer n := by
  rw [Value.count?]
  constructor
  · intro h
    obtain ⟨i, hi, h⟩ := Option.bind_eq_some_iff.mp h
    split at h
    · rename_i hpos
      rw [(v.integer?_eq_some i).mp hi, ← Option.some.inj h, Int.toNat_of_nonneg hpos]
    · cases h
  · rintro rfl
    show (if (0 : Int) ≤ n then some (n : Int).toNat else none) = some n
    rw [if_pos (Int.natCast_nonneg n), Int.toNat_natCast]

/-- Values are all read as texts if they are these texts. -/
theorem mapM_text?_eq_some (items : List Value) : ∀ texts : List String,
    items.mapM Value.text? = some texts ↔ items = texts.map .text := by
  -- on the values; the texts come apart with them, for there are as many
  induction items with
  | nil =>
    intro texts
    cases texts with
    | nil => exact iff_of_true rfl rfl
    | cons s texts => exact iff_of_false (fun h => nomatch h) (fun h => nomatch h)
  | cons v items ih =>
    intro texts
    rw [List.mapM_cons]
    constructor
    · intro h
      obtain ⟨s, hs, h⟩ := Option.bind_eq_some_iff.mp h
      obtain ⟨rest, hrest, h⟩ := Option.bind_eq_some_iff.mp h
      obtain rfl := Option.some.inj h
      rw [(v.text?_eq_some s).mp hs, (ih rest).mp hrest, List.map_cons]
    · intro h
      cases texts with
      | nil => cases h
      | cons s texts =>
        obtain ⟨rfl, hrest⟩ := List.cons.inj h
        show (some s).bind _ = _
        rw [Option.bind_some, (ih texts).mpr hrest]
        rfl

/-- Only an array of texts is read as texts. -/
theorem Value.texts?_eq_some (v : Value) (texts : List String) : v.texts? = some texts ↔ v = .array (texts.map .text) := by
  cases v with
  | array items => rw [Value.texts?, mapM_text?_eq_some, Value.array.injEq]
  | _ => simp [Value.texts?]

end Plain

/-- The value at a path of keys. -/
def Value.at? : Value → List String → Option Value
  | v, [] => some v
  | .table entries, key :: rest => (entries.lookup key).bind (·.at? rest)
  | _, _ :: _ => none

/-- The value at one key is the entry of the table. -/
theorem Value.at?_single (entries : Table) (key : String) : (Value.table entries).at? [key] = entries.lookup key := by
  rw [at?]
  cases entries.lookup key with
  | none => rfl
  | some v => rw [Option.bind_some, at?]

/-- A field of a table in the document is an entry of that table. -/
theorem Value.at?_of_lookup {doc entries : Table} {key : String} (h : doc.lookup key = some (.table entries)) (field : String) :
    (Value.table doc).at? [key, field] = entries.lookup field := by
  rw [at?, h, Option.bind_some, at?_single]

/-- A table that is not there has no fields. -/
theorem Value.at?_of_missing {doc : Table} {key : String} (h : doc.lookup key = none) (field : String) :
    (Value.table doc).at? [key, field] = none := by
  rw [at?, h, Option.bind_none]

section Fields

variable {α : Type} {decode : Value → Option α} {encode : α → Value} {entries : Table} {position : Nat} {key : String}
  {default : Option α} {a : α}

/-- If reading undoes writing, then what is read is what is written in the document, or else the default. -/
theorem Record.read_eq_some (hdecode : ∀ v a, decode v = some a ↔ v = encode a) :
    (Record.named entries).read position key decode default = some a ↔
      some (encode a) = (entries.lookup key).or (default.map encode) := by
  rw [Record.read, Record.get?]
  cases entries.lookup key with
  | some v =>
    show decode v = some a ↔ some (encode a) = some v
    rw [hdecode, Option.some.injEq]
    exact eq_comm
  | none =>
    show default = some a ↔ some (encode a) = default.map encode
    cases default with
    | none => exact iff_of_false (fun h => nomatch h) (fun h => nomatch h)
    | some d =>
      rw [Option.map_some, Option.some.injEq, Option.some.injEq]
      constructor
      · rintro rfl
        rfl
      · -- writing is injective, because reading undoes it
        intro h
        have hd : decode (encode a) = some d := (hdecode _ _).mpr h
        exact Option.some.inj (hd.symm.trans ((hdecode _ _).mpr rfl))

/-- Something is read if what is written fits, and if there is a default unless something is written. -/
theorem Record.exists_read (hdecode : ∀ v a, decode v = some a ↔ v = encode a)
    (hfits : ∀ v, entries.lookup key = some v → ∃ a, v = encode a)
    (hdefault : entries.lookup key = none → default.isSome) :
    ∃ a, (Record.named entries).read position key decode default = some a := by
  cases hv : entries.lookup key with
  | some v =>
    obtain ⟨a, ha⟩ := hfits v hv
    refine ⟨a, (Record.read_eq_some hdecode).mpr ?_⟩
    rw [hv, ha, Option.some_or]
  | none =>
    obtain ⟨a, ha⟩ := Option.isSome_iff_exists.mp (hdefault hv)
    refine ⟨a, (Record.read_eq_some hdecode).mpr ?_⟩
    rw [hv, ha, Option.none_or, Option.map_some]

end Fields

end Toml

/-! ## Fields

The paths of fields are one list, and the kinds of their values are data.  A condition on all fields is stated once, and
`forall_fields` brings it down to the extension, the gates and the commands. -/

/-- The kinds of values that fields have. -/
inductive FieldKind where
  /-- A text. -/
  | text
  /-- Texts in order. -/
  | texts
  /-- A whole number. -/
  | integer
  /-- A whole number that is not negative. -/
  | count
deriving DecidableEq, Repr

/-- The values that fit into a field of a kind. -/
def FieldKind.Fits : FieldKind → Value → Prop
  | .text, v => ∃ s, v = .text s
  | .texts, v => ∃ l : List String, v = .array (l.map .text)
  | .integer, v => ∃ n, v = .integer n
  | .count, v => ∃ n : Nat, v = .integer n

/-- The fields of the gates. -/
def Gates.fields : List (String × FieldKind) :=
  [("min_length", .count), ("nesting_depth", .count), ("break_depth", .integer), ("continue_depth", .integer)]

/-- The fields of a command. -/
def Command.fields : List (String × FieldKind) := [("program", .text), ("args", .texts), ("timeout_secs", .count)]

namespace FilterConfig

/-- The settings that are commands. -/
def commands : List String := ["compiler", "canonicalizer"]

/-- The settings that are tables, with their fields. -/
def tables : List (String × List (String × FieldKind)) :=
  ("gates", Gates.fields) :: commands.map fun key => (key, Command.fields)

/-- All fields of the settings that are no tables, by their paths. -/
def fields : List (List String × FieldKind) :=
  (["extension"], .text) :: tables.flatMap fun t => t.2.map fun f => ([t.1, f.1], f.2)

theorem forall_commands {p : String → Prop} : (∀ key ∈ commands, p key) ↔ p "compiler" ∧ p "canonicalizer" := by
  rw [commands, List.forall_mem_cons, List.forall_mem_singleton]

/-- For each table means for the gates and for each command. -/
theorem forall_tables {p : String × List (String × FieldKind) → Prop} :
    (∀ t ∈ tables, p t) ↔ p ("gates", Gates.fields) ∧ ∀ key ∈ commands, p (key, Command.fields) := by
  rw [tables, List.forall_mem_cons, List.forall_mem_map]

/-- For each field means for the extension and for the fields of each table. -/
theorem forall_fields {p : List String × FieldKind → Prop} :
    (∀ f ∈ fields, p f) ↔ p (["extension"], .text) ∧ ∀ t ∈ tables, ∀ f ∈ t.2, p ([t.1, f.1], f.2) := by
  rw [fields, List.forall_mem_cons, List.forall_mem_flatMap]
  simp only [List.forall_mem_map]

/-- The fields of commands are among the fields of the settings. -/
theorem mem_fields {key : String} (hkey : key ∈ commands) {f : String × FieldKind} (hf : f ∈ Command.fields) :
    ([key, f.1], f.2) ∈ fields :=
  (forall_tables.mp (forall_fields.mp fun _ h => h).2).2 key hkey f hf

end FilterConfig

/-- Gates as a table. -/
def Gates.toTable (g : Gates) : Table :=
  [("min_length", .integer g.minLength), ("nesting_depth", .integer g.nestingDepth),
    ("break_depth", .integer g.breakDepth), ("continue_depth", .integer g.continueDepth)]

/-- A command as a table. -/
def Command.toTable (c : Command) : Table :=
  [("program", .text c.program), ("args", .array (c.args.map .text)), ("timeout_secs", .integer c.timeoutSecs)]

/-- Settings as a table. -/
def FilterConfig.toTable (c : FilterConfig) : Table :=
  [("gates", .table c.gates.toTable), ("extension", .text c.extension),
    ("compiler", .table c.compiler.toTable), ("canonicalizer", .table c.canonicalizer.toTable)]

/-- What a command has that a document does not give: no arguments and thirty seconds. There is no program. -/
def Command.unset : Table := [("args", .array []), ("timeout_secs", .integer 30)]

/-! ## Tables

The gates have a default for each field.  A command has none for its program, and no command stands in for another: this is
why the entries that are not given come from `Command.unset`, and not from the command in the default settings. -/

/-- Gates are read field by field. -/
theorem Gates.ofValue?_reads (entries : Table) (g : Gates) : Gates.ofValue? (.table entries) = some g ↔
    (Record.named entries).read 0 "min_length" Value.count? (some ({} : Gates).minLength) = some g.minLength ∧
    (Record.named entries).read 1 "nesting_depth" Value.count? (some ({} : Gates).nestingDepth) = some g.nestingDepth ∧
    (Record.named entries).read 2 "break_depth" Value.integer? (some ({} : Gates).breakDepth) = some g.breakDepth ∧
    (Record.named entries).read 3 "continue_depth" Value.integer? (some ({} : Gates).continueDepth) = some g.continueDepth := by
  simp only [Gates.ofValue?, Value.record?, Option.bind_eq_bind, Option.bind_some, Option.bind_eq_some_iff,
    Option.pure_def, Option.some.injEq]
  constructor
  · rintro ⟨_, h₀, _, h₁, _, h₂, _, h₃, rfl⟩
    exact ⟨h₀, h₁, h₂, h₃⟩
  · rintro ⟨h₀, h₁, h₂, h₃⟩
    exact ⟨_, h₀, _, h₁, _, h₂, _, h₃, rfl⟩

/-- They are the entries of the table over the default ones. -/
theorem Gates.ofValue?_table (entries : Table) (g : Gates) : Gates.ofValue? (.table entries) = some g ↔
    ∀ f ∈ Gates.fields, g.toTable.lookup f.1 = (entries.lookup f.1).or (({} : Gates).toTable.lookup f.1) := by
  rw [Gates.ofValue?_reads, Record.read_eq_some Value.count?_eq_some, Record.read_eq_some Value.count?_eq_some,
    Record.read_eq_some Value.integer?_eq_some, Record.read_eq_some Value.integer?_eq_some]
  constructor
  · rintro ⟨h₀, h₁, h₂, h₃⟩
    exact List.forall_mem_cons.mpr ⟨h₀, List.forall_mem_cons.mpr ⟨h₁, List.forall_mem_cons.mpr ⟨h₂,
      List.forall_mem_singleton.mpr h₃⟩⟩⟩
  · intro h
    exact ⟨h ("min_length", .count) (by decide), h ("nesting_depth", .count) (by decide),
      h ("break_depth", .integer) (by decide), h ("continue_depth", .integer) (by decide)⟩

/-- There are gates if what is written fits. -/
theorem Gates.exists_ofValue? {entries : Table}
    (hfits : ∀ f ∈ Gates.fields, ∀ v, entries.lookup f.1 = some v → f.2.Fits v) :
    ∃ g, Gates.ofValue? (.table entries) = some g := by
  obtain ⟨minLength, h₀⟩ : ∃ a,
      (Record.named entries).read 0 "min_length" Value.count? (some ({} : Gates).minLength) = some a :=
    Record.exists_read Value.count?_eq_some (hfits ("min_length", .count) (by decide)) fun _ => rfl
  obtain ⟨nestingDepth, h₁⟩ : ∃ a,
      (Record.named entries).read 1 "nesting_depth" Value.count? (some ({} : Gates).nestingDepth) = some a :=
    Record.exists_read Value.count?_eq_some (hfits ("nesting_depth", .count) (by decide)) fun _ => rfl
  obtain ⟨breakDepth, h₂⟩ : ∃ a,
      (Record.named entries).read 2 "break_depth" Value.integer? (some ({} : Gates).breakDepth) = some a :=
    Record.exists_read Value.integer?_eq_some (hfits ("break_depth", .integer) (by decide)) fun _ => rfl
  obtain ⟨continueDepth, h₃⟩ : ∃ a,
      (Record.named entries).read 3 "continue_depth" Value.integer? (some ({} : Gates).continueDepth) = some a :=
    Record.exists_read Value.integer?_eq_some (hfits ("continue_depth", .integer) (by decide)) fun _ => rfl
  exact ⟨⟨minLength, nestingDepth, breakDepth, continueDepth⟩, (Gates.ofValue?_reads _ _).mpr ⟨h₀, h₁, h₂, h₃⟩⟩

/-- A command is read field by field. -/
theorem Command.ofValue?_reads (entries : Table) (c : Command) : Command.ofValue? (.table entries) = some c ↔
    (Record.named entries).read 0 "program" Value.text? none = some c.program ∧
    (Record.named entries).read 1 "args" Value.texts? (some []) = some c.args ∧
    (Record.named entries).read 2 "timeout_secs" Value.count? (some 30) = some c.timeoutSecs := by
  simp only [Command.ofValue?, Value.record?, Option.bind_eq_bind, Option.bind_some, Option.bind_eq_some_iff,
    Option.pure_def, Option.some.injEq]
  constructor
  · rintro ⟨_, h₀, _, h₁, _, h₂, rfl⟩
    exact ⟨h₀, h₁, h₂⟩
  · rintro ⟨h₀, h₁, h₂⟩
    exact ⟨_, h₀, _, h₁, _, h₂, rfl⟩

/-- It is the entries of the table over those that need not be given. -/
theorem Command.ofValue?_table (entries : Table) (c : Command) : Command.ofValue? (.table entries) = some c ↔
    ∀ f ∈ Command.fields, c.toTable.lookup f.1 = (entries.lookup f.1).or (Command.unset.lookup f.1) := by
  rw [Command.ofValue?_reads, Record.read_eq_some Value.text?_eq_some, Record.read_eq_some Value.texts?_eq_some,
    Record.read_eq_some Value.count?_eq_some]
  constructor
  · rintro ⟨h₀, h₁, h₂⟩
    exact List.forall_mem_cons.mpr ⟨h₀, List.forall_mem_cons.mpr ⟨h₁, List.forall_mem_singleton.mpr h₂⟩⟩
  · intro h
    exact ⟨h ("program", .text) (by decide), h ("args", .texts) (by decide), h ("timeout_secs", .count) (by decide)⟩

/-- There is a command if what is written fits and a program is written. -/
theorem Command.exists_ofValue? {entries : Table}
    (hfits : ∀ f ∈ Command.fields, ∀ v, entries.lookup f.1 = some v → f.2.Fits v)
    (hprogram : entries.lookup "program" ≠ none) :
    ∃ c, Command.ofValue? (.table entries) = some c := by
  obtain ⟨program, h₀⟩ : ∃ a, (Record.named entries).read 0 "program" Value.text? none = some a :=
    Record.exists_read Value.text?_eq_some (hfits ("program", .text) (by decide)) fun h => absurd h hprogram
  obtain ⟨args, h₁⟩ : ∃ a, (Record.named entries).read 1 "args" Value.texts? (some []) = some a :=
    Record.exists_read Value.texts?_eq_some (hfits ("args", .texts) (by decide)) fun _ => rfl
  obtain ⟨timeoutSecs, h₂⟩ : ∃ a, (Record.named entries).read 2 "timeout_secs" Value.count? (some 30) = some a :=
    Record.exists_read Value.count?_eq_some (hfits ("timeout_secs", .count) (by decide)) fun _ => rfl
  exact ⟨⟨program, args, timeoutSecs⟩, (Command.ofValue?_reads _ _).mpr ⟨h₀, h₁, h₂⟩⟩

/-- A command is read back from its table. -/
theorem Command.ofValue?_toTable (c : Command) : Command.ofValue? (.table c.toTable) = some c := by
  rw [Command.ofValue?_table]
  exact List.forall_mem_cons.mpr ⟨rfl, List.forall_mem_cons.mpr ⟨rfl, List.forall_mem_singleton.mpr rfl⟩⟩

/-- So commands are told apart by their tables. -/
theorem Command.toTable_inj {c d : Command} (h : c.toTable = d.toTable) : c = d := by
  have hd := d.ofValue?_toTable
  rw [← h, c.ofValue?_toTable] at hd
  exact Option.some.inj hd

/-- The values of gates fit into their fields. -/
theorem Gates.fits_toTable (g : Gates) : ∀ f ∈ Gates.fields, ∃ v, g.toTable.lookup f.1 = some v ∧ f.2.Fits v :=
  List.forall_mem_cons.mpr ⟨⟨_, rfl, _, rfl⟩, List.forall_mem_cons.mpr ⟨⟨_, rfl, _, rfl⟩,
    List.forall_mem_cons.mpr ⟨⟨_, rfl, _, rfl⟩, List.forall_mem_singleton.mpr ⟨_, rfl, _, rfl⟩⟩⟩⟩

theorem Command.fits_toTable (c : Command) : ∀ f ∈ Command.fields, ∃ v, c.toTable.lookup f.1 = some v ∧ f.2.Fits v :=
  List.forall_mem_cons.mpr ⟨⟨_, rfl, _, rfl⟩, List.forall_mem_cons.mpr ⟨⟨_, rfl, _, rfl⟩,
    List.forall_mem_singleton.mpr ⟨_, rfl, _, rfl⟩⟩⟩

/-! ## Documents

Overlaying is said of paths, reading goes field by field.  The two are brought together one table at a time, and then the
three are put together. -/

namespace FilterConfig

variable {doc : Table} {c : FilterConfig}

/-- Where the document has one of the tables, it has a table there. -/
def HoldsTables (doc : Table) : Prop := ∀ t ∈ tables, ∀ v, doc.lookup t.1 = some v → ∃ entries, v = .table entries

/-- A field that is there does not fit, or a command that is there has no program. -/
def Faulty (doc : Table) : Prop :=
  (∃ f ∈ fields, ∃ v, (Value.table doc).at? f.1 = some v ∧ ¬ f.2.Fits v) ∨
  ∃ key ∈ commands, doc.lookup key ≠ none ∧ (Value.table doc).at? [key, "program"] = none

/-- The settings are the document over the defaults. -/
structure Overlays (c : FilterConfig) (doc : Table) : Prop where
  /-- The extension and the fields of the gates are those of the document, or their defaults. -/
  single : ∀ path ∈ ["extension"] :: Gates.fields.map (fun f => ["gates", f.1]),
    (Value.table c.toTable).at? path = ((Value.table doc).at? path).or ((Value.table ({} : FilterConfig).toTable).at? path)
  /-- A command that the document does not have is the default one. -/
  missing : ∀ key ∈ commands, doc.lookup key = none → c.toTable.lookup key = ({} : FilterConfig).toTable.lookup key
  /-- A command that it has is in no field the default one. -/
  replaced : ∀ key ∈ commands, doc.lookup key ≠ none → ∀ f ∈ Command.fields,
    (Value.table c.toTable).at? [key, f.1] = ((Value.table doc).at? [key, f.1]).or (Command.unset.lookup f.1)

/-- The gates of such a document are a table. -/
theorem HoldsTables.gates (h : HoldsTables doc) {v : Value} (hv : doc.lookup "gates" = some v) :
    ∃ entries, v = .table entries :=
  h _ List.mem_cons_self v hv

theorem HoldsTables.command (h : HoldsTables doc) {key : String} (hkey : key ∈ commands) {v : Value}
    (hv : doc.lookup key = some v) : ∃ entries, v = .table entries :=
  h (key, Command.fields) (List.mem_cons_of_mem _ (List.mem_map_of_mem hkey)) v hv

/-- The gates that are read are those of the document over the default ones, whether or not it has any. -/
theorem read_gates (hdoc : HoldsTables doc) (g : Gates) :
    (Record.named doc).read 0 "gates" Gates.ofValue? (some {}) = some g ↔ ∀ f ∈ Gates.fields,
      g.toTable.lookup f.1 = ((Value.table doc).at? ["gates", f.1]).or (({} : Gates).toTable.lookup f.1) := by
  rw [Record.read, Record.get?]
  cases hv : doc.lookup "gates" with
  | some v =>
    obtain ⟨entries, rfl⟩ := hdoc.gates hv
    simp only [Value.at?_of_lookup hv]
    exact Gates.ofValue?_table entries g
  -- without a table of gates all fields are missing, and that is what an empty table says
  | none =>
    simp only [Value.at?_of_missing hv]
    exact Gates.ofValue?_table [] g

/-- The command that is read is the default one if the document has none.  If it has one, nothing of the default is left. -/
theorem read_command (hdoc : HoldsTables doc) {key : String} (hkey : key ∈ commands) (position : Nat) (d e : Command) :
    (Record.named doc).read position key Command.ofValue? (some d) = some e ↔
      (doc.lookup key = none → d = e) ∧
      (doc.lookup key ≠ none → ∀ f ∈ Command.fields,
        e.toTable.lookup f.1 = ((Value.table doc).at? [key, f.1]).or (Command.unset.lookup f.1)) := by
  rw [Record.read, Record.get?]
  cases hv : doc.lookup key with
  | some v =>
    obtain ⟨entries, rfl⟩ := hdoc.command hkey hv
    simp only [Value.at?_of_lookup hv]
    refine (Command.ofValue?_table entries e).trans ?_
    exact ⟨fun h => ⟨(nomatch ·), fun _ => h⟩, fun h => h.2 (nomatch ·)⟩
  | none =>
    show some d = some e ↔ _
    rw [Option.some.injEq]
    exact ⟨fun h => ⟨fun _ => h, fun h => absurd rfl h⟩, fun h => h.1 rfl⟩

/-- Gates are read if the values in their fields fit. -/
theorem exists_gates (hdoc : HoldsTables doc)
    (hfits : ∀ f ∈ Gates.fields, ∀ v, (Value.table doc).at? ["gates", f.1] = some v → f.2.Fits v) :
    ∃ g, (Record.named doc).read 0 "gates" Gates.ofValue? (some {}) = some g := by
  rw [Record.read, Record.get?]
  cases hv : doc.lookup "gates" with
  | some v =>
    obtain ⟨entries, rfl⟩ := hdoc.gates hv
    simp only [Value.at?_of_lookup hv] at hfits
    exact Gates.exists_ofValue? hfits
  | none => exact ⟨{}, rfl⟩

/-- A command is read if the values in its fields fit, and if it has a program when it is there. -/
theorem exists_command (hdoc : HoldsTables doc) {key : String} (hkey : key ∈ commands) (position : Nat) (d : Command)
    (hfits : ∀ f ∈ Command.fields, ∀ v, (Value.table doc).at? [key, f.1] = some v → f.2.Fits v)
    (hprogram : doc.lookup key ≠ none → (Value.table doc).at? [key, "program"] ≠ none) :
    ∃ e, (Record.named doc).read position key Command.ofValue? (some d) = some e := by
  rw [Record.read, Record.get?]
  cases hv : doc.lookup key with
  | some v =>
    obtain ⟨entries, rfl⟩ := hdoc.command hkey hv
    simp only [Value.at?_of_lookup hv] at hfits hprogram
    refine Command.exists_ofValue? hfits (hprogram ?_)
    rw [hv]
    exact fun h => nomatch h
  | none => exact ⟨d, rfl⟩

/-- Settings are read part by part. -/
theorem ofTable?_reads : ofTable? doc = some c ↔
    (Record.named doc).read 0 "gates" Gates.ofValue? (some {}) = some c.gates ∧
    (Record.named doc).read 1 "extension" Value.text? (some ({} : FilterConfig).extension) = some c.extension ∧
    (Record.named doc).read 2 "compiler" Command.ofValue? (some ({} : FilterConfig).compiler) = some c.compiler ∧
    (Record.named doc).read 3 "canonicalizer" Command.ofValue? (some ({} : FilterConfig).canonicalizer) =
      some c.canonicalizer := by
  simp only [ofTable?, Option.bind_eq_bind, Option.bind_eq_some_iff, Option.pure_def, Option.some.injEq]
  constructor
  · rintro ⟨_, h₀, _, h₁, _, h₂, _, h₃, rfl⟩
    exact ⟨h₀, h₁, h₂, h₃⟩
  · rintro ⟨h₀, h₁, h₂, h₃⟩
    exact ⟨_, h₀, _, h₁, _, h₂, _, h₃, rfl⟩

/-- What stands in the fields of the gates of settings. -/
theorem at?_gates (c : FilterConfig) (field : String) :
    (Value.table c.toTable).at? ["gates", field] = c.gates.toTable.lookup field := Value.at?_of_lookup rfl field

theorem at?_compiler (c : FilterConfig) (field : String) :
    (Value.table c.toTable).at? ["compiler", field] = c.compiler.toTable.lookup field := Value.at?_of_lookup rfl field

theorem at?_canonicalizer (c : FilterConfig) (field : String) :
    (Value.table c.toTable).at? ["canonicalizer", field] = c.canonicalizer.toTable.lookup field :=
  Value.at?_of_lookup rfl field

/-- Settings are read from a document exactly if they are the document over the defaults. -/
theorem ofTable?_eq_some_iff (hdoc : HoldsTables doc) : ofTable? doc = some c ↔ c.Overlays doc := by
  -- both commands are read in the same way, at different positions
  obtain ⟨hcompiler, hcanonicalizer⟩ := forall_commands.mp (@read_command doc hdoc)
  rw [ofTable?_reads, read_gates hdoc, hcompiler 2 ({} : FilterConfig).compiler,
    hcanonicalizer 3 ({} : FilterConfig).canonicalizer, Record.read_eq_some Value.text?_eq_some]
  constructor
  · rintro ⟨hgates, hextension, ⟨hmissing, hreplaced⟩, ⟨hmissing', hreplaced'⟩⟩
    constructor
    case single =>
      refine List.forall_mem_cons.mpr ⟨?_, List.forall_mem_map.mpr fun f hf => ?_⟩
      · rw [Value.at?_single doc]
        exact hextension
      · rw [at?_gates, at?_gates]
        exact hgates f hf
    case missing =>
      refine forall_commands.mpr ⟨fun h => ?_, fun h => ?_⟩
      · exact congrArg (fun d : Command => some (Value.table d.toTable)) (hmissing h).symm
      · exact congrArg (fun d : Command => some (Value.table d.toTable)) (hmissing' h).symm
    case replaced =>
      refine forall_commands.mpr ⟨fun h f hf => ?_, fun h f hf => ?_⟩
      · rw [at?_compiler]
        exact hreplaced h f hf
      · rw [at?_canonicalizer]
        exact hreplaced' h f hf
  · intro h
    obtain ⟨hextension, hgates⟩ := List.forall_mem_cons.mp h.single
    obtain ⟨hmissing, hmissing'⟩ := forall_commands.mp h.missing
    obtain ⟨hreplaced, hreplaced'⟩ := forall_commands.mp h.replaced
    simp only [List.forall_mem_map, at?_gates] at hgates
    simp only [at?_compiler] at hreplaced
    simp only [at?_canonicalizer] at hreplaced'
    rw [Value.at?_single doc] at hextension
    refine ⟨hgates, hextension, ⟨fun hnone => ?_, hreplaced⟩, ⟨fun hnone => ?_, hreplaced'⟩⟩
    · exact Command.toTable_inj (Value.table.inj (Option.some.inj (hmissing hnone).symm))
    · exact Command.toTable_inj (Value.table.inj (Option.some.inj (hmissing' hnone).symm))

/-- Every field of settings fits. -/
theorem fits_toTable (c : FilterConfig) : ∀ f ∈ fields, ∃ v, (Value.table c.toTable).at? f.1 = some v ∧ f.2.Fits v := by
  refine forall_fields.mpr ⟨⟨_, rfl, _, rfl⟩, forall_tables.mpr ⟨?_, forall_commands.mpr ⟨?_, ?_⟩⟩⟩
  · simp only [at?_gates]
    exact c.gates.fits_toTable
  · simp only [at?_compiler]
    exact c.compiler.fits_toTable
  · simp only [at?_canonicalizer]
    exact c.canonicalizer.fits_toTable

/-- The value that the document has in a field is that of the settings. -/
theorem Overlays.at?_eq (h : c.Overlays doc) : ∀ f ∈ fields, ∀ v, (Value.table doc).at? f.1 = some v →
    (Value.table c.toTable).at? f.1 = some v := by
  have hsingle : ∀ path ∈ ["extension"] :: Gates.fields.map (fun f => ["gates", f.1]), ∀ v,
      (Value.table doc).at? path = some v → (Value.table c.toTable).at? path = some v := by
    intro path hpath v hv
    rw [h.single path hpath, hv, Option.some_or]
  refine forall_fields.mpr ⟨hsingle _ List.mem_cons_self, forall_tables.mpr ⟨fun f hf => ?_, fun key hkey f hf v hv => ?_⟩⟩
  · exact hsingle _ (List.mem_cons_of_mem _ (List.mem_map_of_mem hf))
  · have hthere : doc.lookup key ≠ none := by
      intro hnone
      rw [Value.at?_of_missing hnone] at hv
      cases hv
    rw [h.replaced key hkey hthere f hf, hv, Option.some_or]

theorem Overlays.fits (h : c.Overlays doc) : ∀ f ∈ fields, ∀ v, (Value.table doc).at? f.1 = some v → f.2.Fits v := by
  intro f hf v hv
  obtain ⟨w, hw, hfits⟩ := c.fits_toTable f hf
  rw [h.at?_eq f hf v hv] at hw
  exact Option.some.inj hw ▸ hfits

/-- There are settings that are the document over the defaults exactly if the document has no fault. -/
theorem exists_overlays_iff (hdoc : HoldsTables doc) : (∃ c : FilterConfig, c.Overlays doc) ↔ ¬ Faulty doc := by
  constructor
  · rintro ⟨c, h⟩ (⟨f, hf, v, hv, hunfit⟩ | ⟨key, hkey, hthere, hprogram⟩)
    · exact hunfit (h.fits f hf v hv)
    · -- the program of the settings is that of the document, and it has none
      have hc := h.replaced key hkey hthere ("program", .text) List.mem_cons_self
      obtain ⟨w, hw, -⟩ := c.fits_toTable ([key, "program"], .text) (mem_fields hkey List.mem_cons_self)
      rw [hprogram, hw] at hc
      cases hc
  · intro hsound
    obtain ⟨hunfit, hlacking⟩ := not_or.mp hsound
    have hfits : ∀ f ∈ fields, ∀ v, (Value.table doc).at? f.1 = some v → f.2.Fits v := by
      intro f hf v hv
      apply Classical.byContradiction
      intro hno
      exact hunfit ⟨f, hf, v, hv, hno⟩
    have hprogram : ∀ key ∈ commands, doc.lookup key ≠ none → (Value.table doc).at? [key, "program"] ≠ none := by
      intro key hkey hthere hnone
      exact hlacking ⟨key, hkey, hthere, hnone⟩
    -- so each of the four parts is read, and what is read overlays the document
    obtain ⟨hextension, htables⟩ := forall_fields.mp hfits
    obtain ⟨hgates, hcommands⟩ := forall_tables.mp htables
    obtain ⟨hcompiler, hcanonicalizer⟩ := forall_commands.mp fun key hkey =>
      @exists_command doc hdoc key hkey
    obtain ⟨gates, h₀⟩ := exists_gates hdoc hgates
    obtain ⟨extension, h₁⟩ : ∃ a,
        (Record.named doc).read 1 "extension" Value.text? (some ({} : FilterConfig).extension) = some a := by
      refine Record.exists_read Value.text?_eq_some (fun v hv => hextension v ?_) fun _ => rfl
      rw [Value.at?_single, hv]
    obtain ⟨compiler, h₂⟩ := hcompiler 2 ({} : FilterConfig).compiler (hcommands _ (by decide)) (hprogram _ (by decide))
    obtain ⟨canonicalizer, h₃⟩ :=
      hcanonicalizer 3 ({} : FilterConfig).canonicalizer (hcommands _ (by decide)) (hprogram _ (by decide))
    exact ⟨⟨gates, extension, compiler, canonicalizer⟩,
      (ofTable?_eq_some_iff hdoc).mp (ofTable?_reads.mpr ⟨h₀, h₁, h₂, h₃⟩)⟩

example : ofTable? [("gates", .table [("min_length", .integer (-1))])] = none := by rfl

example : ofTable? [("compiler", .table [("args", .array [])])] = none := by rfl

end FilterConfig

end SeedCorpus
