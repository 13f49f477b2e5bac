/-
  How the tables of a TOML document come together.

  A document is read as lines: headers and assignments.  While it is put together every table remembers how it came about,
  because that decides whether more may be added.  A table is `implied` if it was only passed through on the way to another
  one, and `dotted` if that way was a key with dots.  A header may complete an implied table once; dotted tables grow only
  through dotted keys of the section they are in; everything written as one value is closed.
-/
import SeedCorpus.Toml.Value

namespace SeedCorpus.Toml

/-- A value under construction. -/
inductive Node where
  /-- A value that is complete. -/
  | closed (v : Value)
  /-- A table, with the two marks of how it came about. -/
  | table (implied dotted : Bool) (entries : List (String × Node))
  /-- The tables of a header in double brackets, the last one first. -/
  | tables (newest : List (String × Node)) (older : List (List (String × Node)))
deriving Inhabited

mutual

/-- The finished value. -/
def Node.toValue : Node → Value
  | .closed v => v
  | .table _ _ entries => .table (finishEntries entries)
  | .tables newest older => .array (finishTables [.table (finishEntries newest)] older)

/-- The finished entries of a table. -/
def finishEntries : List (String × Node) → List (String × Value)
  | [] => []
  | (key, node) :: rest => (key, node.toValue) :: finishEntries rest

/-- The finished tables, put in front of `later` in the order in which they were written. -/
def finishTables (later : List Value) : List (List (String × Node)) → List Value
  | [] => later
  | entries :: older => finishTables (.table (finishEntries entries) :: later) older

end

/-- A table under construction. -/
structure Draft where
  /-- Whether the table was only passed through. -/
  implied : Bool := false
  /-- Whether a key with dots made the table. -/
  dotted : Bool := false
  /-- The entries so far. -/
  entries : List (String × Node) := []
deriving Inhabited

namespace Draft

/-- The table as a node of another. -/
def toNode (t : Draft) : Node := .table t.implied t.dotted t.entries

/-- The node of a key. -/
def get? (t : Draft) (key : String) : Option Node := t.entries.lookup key

/-- The table with a node for a key. -/
def put (t : Draft) (key : String) (node : Node) : Draft :=
  { t with entries := (key, node) :: t.entries.filter (·.1 ≠ key) }

/-- Changes the table that a path leads to, and makes the tables that are missing on the way. -/
def descend (dotted : Bool) (change : Draft → Option Draft) (t : Draft) : List String → Option Draft
  | [] => change t
  | key :: rest => do
    match t.get? key with
    | none =>
      let below ← descend dotted change { implied := true, dotted } rest
      return t.put key below.toNode
    | some (.table implied wasDotted entries) =>
      if dotted && !implied then none
      else
        let below ← descend dotted change { implied, dotted := wasDotted, entries } rest
        return t.put key below.toNode
    | some (.tables newest older) =>
      let below ← descend dotted change { entries := newest } rest
      return t.put key (.tables below.entries older)
    | some (.closed _) => none

end Draft

/-- An assignment: the key without its last part, the last part, and the value. -/
structure Assignment where
  /-- The key without its last part. -/
  path : List String
  /-- The last part. -/
  key : String
  /-- The value. -/
  value : Value
deriving Inhabited

/-- Carries out an assignment. A key is given once, and only a dotted key reaches into a dotted table. -/
def Draft.assign (t : Draft) (a : Assignment) : Option Draft :=
  let change (t : Draft) : Option Draft :=
    if t.dotted = a.path.isEmpty || (t.get? a.key).isSome then none else some (t.put a.key (.closed a.value))
  descend true change t a.path

/-- Carries out assignments one after the other. -/
def Draft.assignAll (t : Draft) (assignments : List Assignment) : Option Draft := assignments.foldlM Draft.assign t

/-- The table that assignments between braces make. -/
def tableOf (assignments : List Assignment) : Option Value :=
  (({} : Draft).assignAll assignments).map fun t => t.toNode.toValue

/-- A header. -/
inductive Header where
  /-- The table of a key. -/
  | single (path : List String) (key : String)
  /-- One more table of the array of a key. -/
  | element (path : List String) (key : String)
deriving Inhabited

/-- A line that says something. -/
inductive Line where
  /-- A header. -/
  | header (h : Header)
  /-- An assignment. -/
  | assignment (a : Assignment)
deriving Inhabited

/-- Lines up to the next header, and the sections from there on. -/
def splitSections : List Line → List Assignment × List (Header × List Assignment)
  | [] => ([], [])
  | .assignment a :: rest =>
    let (front, sections) := splitSections rest
    (a :: front, sections)
  | .header h :: rest =>
    let (front, sections) := splitSections rest
    ([], (h, front) :: sections)

/-- Adds a section to a document. -/
def Draft.addSection (root : Draft) : Header × List Assignment → Option Draft
  | (.single path key, assignments) =>
    let change (parent : Draft) : Option Draft := do
      let start : Draft ← match parent.get? key with
        | none => some {}
        | some (.table true false entries) => some { entries }
        | some _ => none
      return parent.put key (← start.assignAll assignments).toNode
    descend false change root path
  | (.element path key, assignments) =>
    let change (parent : Draft) : Option Draft := do
      let older ← match parent.get? key with
        | none => some []
        | some (.tables newest older) => some (newest :: older)
        | some _ => none
      let newest ← ({} : Draft).assignAll assignments
      return parent.put key (.tables newest.entries older)
    descend false change root path

/-- The document that lines make. -/
def tableOfLines (lines : List Line) : Option Table := do
  let (front, sections) := splitSections lines
  let root ← ({} : Draft).assignAll front
  let root ← sections.foldlM Draft.addSection root
  return finishEntries root.entries

end SeedCorpus.Toml
