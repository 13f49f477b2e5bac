/-
  Stand-in programs: what one works on and what it leaves.

  A tool is a function: from arguments, a stream of bytes and all files, to two streams of bytes, a status, the time that it
  sleeps, and the files as it leaves them.  Nothing else takes time.
-/
import SeedCorpus.Folder.Tree
import SeedCorpus.Text.Utf8

namespace SeedCorpus.StandIn

/-- Where in a file a stream has come to. -/
structure Tool.Spot where
  /-- The names that lead to the file. -/
  parts : List String
  /-- How many bytes stand in front. -/
  place : Nat
deriving DecidableEq, Repr, Inhabited

/-- What a tool works on. -/
structure Tool.Task where
  /-- The arguments. -/
  args : List String
  /-- The stream that the tool reads. -/
  input : Bytes
  /-- All files. -/
  files : FileTree
  /-- Where the input comes from, if it comes from a file. -/
  source : Option Spot := none
  /-- Where the results go, if they go to a file. -/
  target : Option Spot := none
deriving Inhabited

/-- What a tool leaves. -/
structure Tool.Finish where
  /-- The results. -/
  output : Bytes := []
  /-- The complaints. -/
  errors : Bytes := []
  /-- Zero for success. -/
  status : Nat := 0
  /-- The thousandths of a second that the tool sleeps. -/
  millis : Nat := 0
  /-- Whether the tool has read its input. -/
  consumed : Bool := false
  /-- All files, if the tool changed any. -/
  changed : Option FileTree := none
deriving Inhabited

/-- A program that comes with the library. -/
abbrev Tool := Tool.Task → Tool.Finish

namespace Tool

/-- The end of a tool that complains about something. -/
def complain (name text : String) (status : Nat) : Finish :=
  { errors := Utf8.encode (name ++ ": " ++ text ++ "\n"), status }

/-- The line that tells where to find help. -/
def helpHint (name : String) : String := "Try '" ++ name ++ " --help' for more information."

/-- The end of a tool that lacks an operand. -/
def missingOperand (name : String) : Finish := complain name ("missing operand\n" ++ helpHint name) 1

/-- A text with another one in place of each occurrence of a third. -/
def withInPlaceOf (old new text : String) : String := new.intercalate (text.splitOn old)

/-- A finish with the name that a tool was called by in the complaints, where these begin with its usual name. -/
def Finish.calledAs (f : Finish) (name called : String) : Finish :=
  if name = called || f.errors.isEmpty then f
  else
    let line (text : String) : String :=
      if text.startsWith (name ++ ": ") then called ++ String.ofList (text.toList.drop name.length)
      else withInPlaceOf ("Try '" ++ name ++ " --help'") ("Try '" ++ called ++ " --help'") text
    { f with errors := Utf8.encode ("\n".intercalate (((Utf8.decode f.errors).splitOn "\n").map line)) }

/-- How many zeros stand for zeros without end. -/
def manyZeros : Nat := 2 ^ 20

/-- The bytes of the file that a path leads to. -/
def Task.readFile (t : Task) (path : String) : Except FileError Bytes :=
  match t.files.device? path with
  | some .input => .ok t.input
  | some .zeros | some .full => .ok (List.replicate manyZeros 0)
  | _ => (t.files.read path).map ByteArray.toList

/-- The bytes of an operand; a dash means the input. -/
def Task.read (t : Task) (operand : String) : Except FileError Bytes :=
  if operand = "-" then .ok t.input else t.readFile operand

/-- Whether an operand means the input. -/
def Task.isInput (t : Task) (operand : String) : Bool := operand = "-" || t.files.device? operand = some .input

/-- Whether the input is among operands. -/
def Task.takesInput (t : Task) (operands : List String) : Bool := operands.any t.isInput

/-- Whether an operand is the file that the results go to. -/
def Task.isTarget (t : Task) (operand : String) : Bool :=
  let parts : Option (List String) :=
    if operand = "-" then t.source.map (·.parts) else (t.files.locate operand).toOption.map (·.parts)
  match parts, t.target with
  | some parts, some target => parts = target.parts
  | _, _ => false

/-- The operands with their bytes, or why these cannot be read. The input can be read once. -/
def Task.contents (t : Task) : List String → List (String × Except FileError Bytes)
  | [] => []
  | operand :: rest =>
    let t' := if t.isInput operand then { t with input := [] } else t
    (operand, t.read operand) :: t'.contents rest

/-! ## Names in complaints -/

/-- Whether a byte can stand in a name without quotes. -/
def isPlainInName (b : UInt8) : Bool :=
  let c := Char.ofNat b.toNat
  b < 128 && (c.isAlphanum || "%+,-./:=@_".toList.contains c)

/-- Whether a byte of a name may be shown as it is. -/
def isShown (b : UInt8) : Bool := 32 ≤ b && b < 127

/-- An escape for a byte that cannot be shown. -/
def escapeOf (b : UInt8) : String :=
  match b with
  | 7 => "\\a"
  | 8 => "\\b"
  | 9 => "\\t"
  | 10 => "\\n"
  | 11 => "\\v"
  | 12 => "\\f"
  | 13 => "\\r"
  | b => "\\" ++ String.ofList ((Nat.toDigits 8 (512 + b.toNat)).drop 1)

/-- The bytes of a name in single quotes; `inText` tells whether no escape is under way. -/
def quotedFrom (inText : Bool) : Bytes → String
  | [] => "'"
  | b :: rest =>
    if isShown b then
      (if inText then "" else "''") ++ (if b = 39 then "'\\''" else String.singleton (Char.ofNat b.toNat))
        ++ quotedFrom true rest
    else (if inText then "'$'" else "") ++ escapeOf b ++ quotedFrom false rest

/-- A name in quotes: in double ones if it holds a single quote and nothing that means something in double ones. -/
def quotedAlways (name : String) : String :=
  let s := Utf8.encode name
  if s.contains 39 && s.all fun b => isShown b && !([34, 36, 96, 92].contains b) then "\x22" ++ name ++ "\x22"
  else "'" ++ quotedFrom true s

/-- A name as it stands in complaints, in quotes if need be. -/
def quoted (name : String) : String :=
  if name.isEmpty || !(Utf8.encode name).all isPlainInName then quotedAlways name else name

/-- A word that is cited: in single quotes, with backslashes in front of these. -/
def cited (word : String) : String :=
  let piece (b : UInt8) : String :=
    if b = 39 || b = 92 then "\\" ++ String.singleton (Char.ofNat b.toNat)
    else if isShown b then String.singleton (Char.ofNat b.toNat)
    else escapeOf b
  "'" ++ String.join ((Utf8.encode word).map piece) ++ "'"

/-- What is said of an operand that cannot be read. -/
def unreadable (operand : String) (e : FileError) : String := quoted operand ++ ": " ++ e.reason

/-- The bytes of the operands that can be read, and complaints about the others. -/
def Task.gather (t : Task) (name : String) (describe : String → FileError → String) (operands : List String) :
    Bytes × Bytes :=
  let contents := t.contents operands
  (contents.flatMap fun (_, content) => content.toOption.getD [],
    contents.flatMap fun (operand, content) =>
      match content with
      | .ok _ => []
      | .error e => Utf8.encode (name ++ ": " ++ describe operand e ++ "\n"))

/-- What a filter makes of its operands taken together, or of its input if it has none. -/
def filterAs (name : String) (describe : String → FileError → String) (operands : List String) (t : Task)
    (f : Bytes → Bytes) : Finish :=
  let names := if operands.isEmpty then ["-"] else operands
  let (bytes, errors) := t.gather name describe names
  { output := f bytes, errors, status := if errors.isEmpty then 0 else 1, consumed := t.takesInput names }

/-- What a filter makes of its operands, with the usual complaints. -/
def filterWith (name : String) (operands : List String) (t : Task) (f : Bytes → Bytes) : Finish :=
  filterAs name unreadable operands t f

/-! ## Programs in files -/

/-- What the file of a program begins with. -/
def programMark : Bytes := [127, 69, 76, 70]

/-- The file of the program of a name. -/
def programFile (name : String) : ByteArray := ⟨(programMark ++ Utf8.encode name).toArray⟩

/-- The name of the program in a file, if there is one. -/
def programIn? (content : ByteArray) : Option String :=
  if (content.extract 0 4).toList = programMark then some (Utf8.decode (content.toList.drop 4)) else none

/-! ## Lines -/

/-- The byte at the end of a line. -/
def newline : UInt8 := 10

/-- A byte put in front of lines. -/
def consByte (b : UInt8) (below : List Bytes) : List Bytes :=
  match below with
  | l :: more => if b = newline then [b] :: l :: more else (b :: l) :: more
  | [] => [[b]]

/-- The lines of a stream, each with the newline at its end; the last one may lack it. -/
def lines (bytes : Bytes) : List Bytes := bytes.foldr consByte []

/-- A line without its newline. -/
def bare (line : Bytes) : Bytes := if line.getLast? = some newline then line.dropLast else line

/-- A line with its newline. -/
def closed (line : Bytes) : Bytes := bare line ++ [newline]

end Tool

end SeedCorpus.StandIn
