/-
  Programs that work on files.

  Every function takes `(int arg)`.  Two helpers do the work on files: `read_input` adds up the integers of a file,
  `write_output` appends a line to one.  Input files are named by a number below the number of functions and get their
  content, one random value a line and as many lines as there are functions, when the number is drawn for the first time;
  `Notes.inputs` holds them in the order of their numbers.  Output files are named `out_` and a number.
-/
import SeedCorpus.Synthesis.Strategy

namespace SeedCorpus

namespace FileBacked

/-- What the strategy remembers. -/
structure Notes where
  /-- The helper that reads, once it is declared. -/
  reader : Option FuncId := none
  /-- The helper that writes, once it is declared. -/
  writer : Option FuncId := none
  /-- The contents of the input files by number, in ascending order. -/
  inputs : List (Nat × String) := []
deriving DecidableEq, Repr, Inhabited

/-- The name of the helper that reads. -/
def readerName : String := "read_input"

/-- The name of the helper that writes. -/
def writerName : String := "write_output"

/-- A helper, if it is declared. -/
def helper (id : Option FuncId) (name : String) : Except SynthesisError FuncId :=
  match id with
  | some f => .ok f
  | none => .error (.unknownSymbol .function name)

/-- Files an entry in ascending order of the numbers. -/
def insertInput (n : Nat) (contents : String) : List (Nat × String) → List (Nat × String)
  | [] => [(n, contents)]
  | (m, other) :: rest =>
    if n < m then (n, contents) :: (m, other) :: rest else (m, other) :: insertInput n contents rest

/-- The content of a file of values. -/
def fileOfValues (values : List Nat) : String := String.join (values.map fun v => toString v ++ "\n")

/-- Makes sure that an input file has content. -/
def ensureInput (n size : Nat) : Drawing Notes Unit := do
  match (← Drawing.notes).inputs.lookup n with
  | some _ => pure ()
  | none =>
    let values ← Drawing.manyUpTo (valueBound size) size
    Drawing.note fun notes => { notes with inputs := insertInput n (fileOfValues values) notes.inputs }

/-- A text in double quotes. -/
def quoted (text : String) : Expr := .literal ("\x22" ++ text ++ "\x22")

/-- The condition that a file could not be opened. -/
def openFailed : Expr := .literal "f == NULL"

/-- The statement that opens the file named by a variable. -/
def openFile (r : Registry) (path : VarId) (mode : String) : Stmt :=
  .raw ("FILE* f = fopen(" ++ r.variableName path ++ ", \x22" ++ mode ++ "\x22);")

/-- The statement that closes the file. -/
def closeFile : Stmt := .raw "fclose(f);"

/-- The body of the helper that reads. -/
def readerBody (r : Registry) (int : ValueType) (plus : Operation) (path value total : VarId) : Block :=
  [ openFile r path "r",
    .whenever openFailed [.result (.int 0)],
    .scalar int total (.int 0),
    .scalar int value (.int 0),
    .loop (.literal ("fscanf(f, \x22%d\x22, &" ++ r.variableName value ++ ") == 1")) [.update total plus (.var value)],
    closeFile,
    .result (.var total) ]

/-- The body of the helper that writes. -/
def writerBody (r : Registry) (path value : VarId) : Block :=
  [ openFile r path "a",
    .whenever openFailed [.raw "return;"],
    .raw ("fprintf(f, \x22%d\\n\x22, " ++ r.variableName value ++ ");"),
    closeFile ]

/-- Declares the two helpers. -/
def declareHelpers : Declaring Notes (List FuncId) := do
  let int ← Declaring.type "int"
  let string ← Declaring.type "string"
  let void ← Declaring.type "void"
  let plus ← orFail ((← Declaring.registry).operation "sum")
  let path ← Declaring.newVariable string "path"
  let value ← Declaring.newVariable int "value"
  let total ← Declaring.newVariable int "total"
  let reader ← Declaring.newFunction int readerName [path]
  Declaring.setBody reader (readerBody (← Declaring.registry) int plus path value total)
  let writer ← Declaring.newFunction void writerName [path, value]
  Declaring.setBody writer (writerBody (← Declaring.registry) path value)
  Declaring.note fun notes => { notes with reader := some reader, writer := some writer }
  return [reader, writer]

end FileBacked

open SeedCorpus.FileBacked in
/-- The way of making programs that read and write files. -/
def fileBacked : Strategy FileBacked.Notes where
  roles := do
    declareIntRoles
    orFail (Roles.ofPools (← Declaring.registry))
  params _ roles := [roles.arg]
  helpers := declareHelpers
  callArgs _ _ adjusted := [adjusted]
  loopGuard _ r roles := positive r roles.sum
  read r roles size := do
    let reader ← orFail (helper (← Drawing.notes).reader readerName)
    let n ← Drawing.below size
    ensureInput n size
    let call ← orFail (r.call reader [quoted (toString n)])
    let plus ← orFail (r.operation "sum")
    return .update roles.sum plus call
  write r roles call size := do
    let writer ← orFail (helper (← Drawing.notes).writer writerName)
    let n ← Drawing.below size
    let store ← orFail (r.call writer [quoted ("out_" ++ toString n), call])
    let guarded ← orFail (positive r roles.arg)
    return .whenever guarded [.effect store]
  prelude _ _ _ := pure []
  takeFiles notes :=
    (notes.inputs.map fun (n, contents) => { name := toString n, contents }, { notes with inputs := [] })

end SeedCorpus
