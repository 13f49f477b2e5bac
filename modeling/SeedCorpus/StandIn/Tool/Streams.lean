/-
  Stand-ins for programs that pass streams on, in part or in another order.
-/
import SeedCorpus.StandIn.Tool.Options
import SeedCorpus.StandIn.Tool.Printf

namespace SeedCorpus.StandIn.Tool

/-- The number that a text stands for. -/
def naturalOf? (text : String) : Option Nat :=
  let (n, count, rest) := leadingDigits digit? 10 text.length text.toList
  if count > 0 && rest.isEmpty then some n else none

/-! ## Whole streams -/

/-- A byte with marks for what cannot be seen. -/
def visibleByte (b : UInt8) : Bytes :=
  let plain (b : UInt8) : Bytes :=
    if b = 127 then [94, 63] else if b < 32 then [94, b + 64] else [b]
  if b = newline || b = 9 then [b]
  else if 128 ≤ b then [77, 45] ++ plain (b - 128)
  else plain b

/-- A line as options of `cat` want it. -/
def catLine (given : Char → Bool) (line : Bytes) : Bytes :=
  let body := bare line
  let body := if given 'v' || given 'A' || given 'e' || given 't' then body.flatMap visibleByte else body
  let body := if given 'T' || given 'A' || given 't' then body.flatMap fun b => if b = 9 then [94, 73] else [b] else body
  let isWhole := line.getLast? = some newline
  body ++ (if (given 'E' || given 'A' || given 'e') && isWhole then [36] else []) ++ (if isWhole then [newline] else [])

/-- Lines without the empty ones that follow an empty one. -/
def squeezeLines : List Bytes → List Bytes
  | a :: b :: rest =>
    if a = [newline] ∧ b = [newline] then squeezeLines (b :: rest) else a :: squeezeLines (b :: rest)
  | lines => lines

/-- Lines with numbers in front, of all lines or of those that are not empty. -/
def numberLines (all : Bool) : Nat → List Bytes → List Bytes
  | _, [] => []
  | n, line :: rest =>
    if all || line ≠ [newline] then (numeral 10 false { width := 6 } n ++ 9 :: line) :: numberLines all (n + 1) rest
    else line :: numberLines all n rest

/-- The letters of options of `cat` that have names. -/
def catNames : List (String × String) :=
  [("number", "n"), ("number-nonblank", "b"), ("show-all", "A"), ("show-ends", "E"), ("show-tabs", "T"),
    ("show-nonprinting", "v"), ("squeeze-blank", "s")]

/-- What is shown of bytes with numbers and marks. -/
def shownBy (given : Char → Bool) (bytes : Bytes) : Bytes :=
  let kept := if given 's' then squeezeLines (lines bytes) else lines bytes
  let shown := if given 'b' || given 'n' then numberLines (!given 'b') 1 kept else kept
  (shown.map (catLine given)).flatten

/-- Operands with their bytes or what is wrong with them. A file that results were already printed to is not passed on to
itself; the number tells how much was printed. -/
def withoutTarget (t : Task) : Nat → List (String × Except FileError Bytes) → List (String × Except String Bytes)
  | _, [] => []
  | printed, (operand, content) :: rest =>
    match content with
    | .error e => (operand, .error e.reason) :: withoutTarget t printed rest
    | .ok bytes =>
      let start := if operand = "-" then (t.source.map (·.place)).getD 0 else 0
      if t.isTarget operand && start < printed then
        (operand, .error "input file is output file") :: withoutTarget t printed rest
      else (operand, .ok bytes) :: withoutTarget t (printed + bytes.length) rest

/-- Passes everything on, with numbers and marks if they are asked for. -/
def cat : Tool := fun t => withNamedOptions "cat" "" "AbeEnstTuv" catNames t 1 fun options operands =>
  let given (letter : Char) : Bool := (options.lookup letter).isSome
  let names := if operands.isEmpty then ["-"] else operands
  let contents := withoutTarget t ((t.target.map (·.place)).getD 0) (t.contents names)
  let bytes := contents.flatMap fun (_, content) => content.toOption.getD []
  let errors := contents.filterMap fun (operand, content) =>
    match content with
    | .ok _ => none
    | .error text => some ("cat: " ++ quoted operand ++ ": " ++ text ++ "\n")
  { output := if options.all (·.1 = 'u') then bytes else shownBy given bytes
    errors := Utf8.encode (String.join errors), status := if errors.isEmpty then 0 else 1, consumed := t.takesInput names }

/-- What is said of a file that a tool cannot open. -/
def unopened (verb : String) (operand : String) (e : FileError) : String :=
  match e with
  | .isFolder =>
    if verb = "failed to" then operand ++ ": read error: " ++ e.reason
    else "error reading " ++ quotedAlways operand ++ ": " ++ e.reason
  | e => verb ++ " open " ++ quotedAlways operand ++ " for reading: " ++ e.reason

/-- The last lines first. -/
def tac : Tool := fun t => filterAs "tac" (unopened "failed to") t.args t fun bytes => (lines bytes).reverse.flatten

/-- Each line from its end. -/
def rev : Tool := fun t => filterWith "rev" t.args t fun bytes =>
  (lines bytes).flatMap fun line =>
    Utf8.encode (String.ofList (Utf8.decode (bare line)).toList.reverse) ++ line.drop (bare line).length

/-! ## Parts of streams -/

/-- How much of a stream is wanted. -/
inductive Share where
  /-- So many lines or bytes. -/
  | count (n : Nat)
  /-- All but so many. -/
  | allBut (n : Nat)
  /-- From a place on. -/
  | start (n : Nat)
deriving DecidableEq, Repr, Inhabited

/-- The share that a text asks for. -/
def Share.ofText? (text : String) : Option Share :=
  match text.toList with
  | '-' :: n => (naturalOf? (String.ofList n)).map .allBut
  | '+' :: n => (naturalOf? (String.ofList n)).map .start
  | _ => (naturalOf? text).map .count

/-- The letters of options of `head` and `tail` that have names. -/
def shareNames : List (String × String) := [("lines", "n"), ("bytes", "c"), ("quiet", "q"), ("silent", "q")]

/-- Passes on a share of lines or bytes, ten lines if nothing else is asked for. -/
def passShare (name : String) (t : Task) (take : {α : Type} → Share → List α → List α) : Finish :=
  withOptions name "nc" "q" { t with args := t.args.map (shortened shareNames) } 1 fun options operands =>
    let (letter, amount) := ((options.filter (·.1 ≠ 'q')).getLast?).getD ('n', "10")
    match Share.ofText? amount with
    | none => complain name ("invalid number of " ++ (if letter = 'c' then "bytes" else "lines") ++ ": " ++ cited amount) 1
    | some share => filterAs name (unopened "cannot") operands t fun bytes =>
      if letter = 'c' then take share bytes else (take share (lines bytes)).flatten

/-- The front of a stream. -/
def head : Tool := fun t => passShare "head" t fun share items =>
  match share with
  | .allBut n => items.take (items.length - n)
  | .count n | .start n => items.take n

/-- The end of a stream. -/
def tail : Tool := fun t => passShare "tail" t fun share items =>
  match share with
  | .start n => items.drop (n - 1)
  | .count n | .allBut n => items.drop (items.length - n)

/-- Whether the places chosen by a list such as `1,3-5` take in a place. -/
def choosesPlace (list : String) (place : Nat) : Bool :=
  (list.splitOn ",").any fun range =>
    match range.splitOn "-" with
    | [n] => naturalOf? n = some place
    | [a, b] => (naturalOf? a).getD 1 ≤ place && (b.isEmpty || place ≤ (naturalOf? b).getD 0)
    | _ => false

/-- The items of a list at the chosen places. -/
def choose {α : Type} (list : String) (items : List α) : List α :=
  (items.zipIdx.filter fun (_, k) => choosesPlace list (k + 1)).map (·.1)

/-- Chosen bytes or fields of each line. -/
def cut : Tool := fun t => withOptions "cut" "dfcb" "s" t 1 fun options operands =>
  filterWith "cut" operands t fun bytes =>
    let delimiter := (options.lookup 'd').getD "\t"
    (lines bytes).flatMap fun line =>
      match options.lookup 'f', options.lookup 'c' <|> options.lookup 'b' with
      | some list, _ =>
        let text := Utf8.decode (bare line)
        let fields := text.splitOn delimiter
        Utf8.encode (if fields.length ≤ 1 then text else delimiter.intercalate (choose list fields)) ++ [newline]
      | none, some list => choose list (bare line) ++ [newline]
      | none, none => line

/-- Passes on blocks of a file or of the input. The size of a block and the numbers of blocks to skip and to pass on are
given by name. -/
def dd : Tool := fun t =>
  let setting (name : String) : Option String :=
    (t.args.find? fun word => word.startsWith (name ++ "=")).map fun word =>
      String.ofList (word.toList.drop (name.length + 1))
  let number (name : String) : Option Nat := (setting name).bind naturalOf?
  let size := (number "bs").getD 512
  match t.read ((setting "if").getD "-") with
  | .ok bytes =>
    let rest := bytes.drop (size * (number "skip").getD 0)
    { output := ((number "count").map fun n => rest.take (size * n)).getD rest, consumed := (setting "if").isNone }
  | .error e => complain "dd" ("failed to open " ++ quotedAlways ((setting "if").getD "") ++ ": " ++ e.reason) 1

/-! ## Lines in order -/

/-- Whether a line stands in front of another, or they are alike. -/
def lineLE (numeric : Bool) (a b : Bytes) : Bool :=
  let value (line : Bytes) : Int := (numberOf (Utf8.decode (line.dropWhile (· = 32)))).1
  if numeric && value a ≠ value b then value a < value b else a == b || decide (a < b)

/-- The lines in order. -/
def sort : Tool := fun t => withOptions "sort" "kto" "nru" t 2 fun options operands =>
  filterWith "sort" operands t fun bytes =>
    let given (letter : Char) : Bool := (options.lookup letter).isSome
    let sorted := ((lines bytes).map bare).mergeSort (lineLE (given 'n'))
    let sorted := if given 'u' then sorted.eraseDups else sorted
    ((if given 'r' then sorted.reverse else sorted).map closed).flatten

/-- Runs of equal lines: how many there are, and the line. -/
def runs (items : List Bytes) : List (Nat × Bytes) :=
  items.foldr (fun line below =>
    match below with
    | (n, l) :: more => if l = line then (n + 1, l) :: more else (1, line) :: (n, l) :: more
    | [] => [(1, line)]) []

/-- One line for each run of equal lines. -/
def uniq : Tool := fun t => withOptions "uniq" "" "cdu" t 1 fun options operands =>
  filterWith "uniq" operands t fun bytes =>
    let given (letter : Char) : Bool := (options.lookup letter).isSome
    let kept := (runs ((lines bytes).map bare)).filter fun (n, _) => (!given 'd' || n > 1) && (!given 'u' || n = 1)
    kept.flatMap fun (n, line) => (if given 'c' then numeral 10 false { width := 7 } n ++ [32] else []) ++ closed line

/-! ## Counting -/

/-- The number of words of a stream. -/
def wordCount (bytes : Bytes) : Nat :=
  let isSpace (b : UInt8) : Bool := b = 32 || (9 ≤ b && b ≤ 13)
  (bytes.foldl (fun (n, inWord) b => if isSpace b then (n, false) else (if inWord then n else n + 1, true))
    (0, false)).1

/-- What the letter of an option of `wc` counts. -/
def countOf (bytes : Bytes) : Char → Nat
  | 'l' => bytes.count newline
  | 'w' => wordCount bytes
  | 'm' => (bytes.filter fun b => b < 0x80 || 0xC0 ≤ b).length
  | _ => bytes.length

/-- The letters of options of `wc` that have names. -/
def countNames : List (String × String) := [("lines", "l"), ("words", "w"), ("chars", "m"), ("bytes", "c")]

/-- Counts lines, words, characters and bytes, in this order, of each operand and, if there are several, of all together. -/
def wc : Tool := fun t =>
  let t := { t with args := t.args.map (shortened countNames) }
  withOptions "wc" "" "lwmc" t 1 fun options operands =>
    let given := options.map (·.1)
    let letters := "lwmc".toList.filter (if given.isEmpty then "lwc".toList else given).contains
    let names := if operands.isEmpty then ["-"] else operands
    let readable := (t.contents names).filterMap fun (name, content) => content.toOption.map (name, ·)
    let total := (readable.map (·.2)).flatten
    let width :=
      if letters.length = 1 && names.length = 1 then 1
      else if names.any fun name => t.isInput name || (t.files.device? name).isSome then 7
      else (toString total.length).length
    let row (name : String) (bytes : Bytes) : Bytes :=
      let cells := letters.map fun letter => numeral 10 false { width } (countOf bytes letter)
      [32].intercalate cells ++ (if operands.isEmpty then [] else Utf8.encode (" " ++ name)) ++ [newline]
    let rows := readable.flatMap fun (name, bytes) => row name bytes
    let (_, errors) := t.gather "wc" unreadable names
    { output := if names.length > 1 then rows ++ row "total" total else rows, errors
      status := if errors.isEmpty then 0 else 1, consumed := t.takesInput names }

/-! ## Numbers and time -/

/-- How many lines stand for lines without end. -/
def manyLines : Nat := 65536

/-- The same line again and again. -/
def yes : Tool := fun t =>
  let line := Utf8.encode ((if t.args.isEmpty then "y" else " ".intercalate t.args) ++ "\n")
  { output := (List.replicate manyLines line).flatten }

/-- Numbers in a row, one a line. -/
def seq : Tool := fun t =>
  let (first, step, last) : Int × Int × Int := match t.args.map fun w => (numberOf w).1 with
    | [last] => (1, 1, last)
    | [first, last] => (first, 1, last)
    | first :: step :: last :: _ => (first, step, last)
    | [] => (1, 1, 0)
  let count : Int := if step > 0 then (last - first) / step + 1 else if step < 0 then (first - last) / (-step) + 1 else 0
  if t.args.isEmpty then missingOperand "seq"
  else
    { output := ((List.range count.toNat).map fun (k : Nat) =>
        Utf8.encode (toString (first + k * step) ++ "\n")).flatten }

/-- The thousandths of a second that a text such as `1.5` or `2m` stands for. -/
def millisOf? (text : String) : Option Nat :=
  let (whole, count, rest) := leadingDigits digit? 10 text.length text.toList
  let (fraction, rest) : Nat × List Char := match rest with
    | '.' :: rest =>
      let (n, k, _) := leadingDigits digit? 10 3 rest
      (n * 10 ^ (3 - k), rest.dropWhile Char.isDigit)
    | rest => (0, rest)
  let millis := whole * 1000 + fraction
  if count = 0 && fraction = 0 then none
  else
    match rest with
    | [] | ['s'] => some millis
    | ['m'] => some (60 * millis)
    | ['h'] => some (3600 * millis)
    | ['d'] => some (86400 * millis)
    | _ => none

/-- Waits. -/
def sleep : Tool := fun t =>
  match t.args.mapM millisOf? with
  | some [] => missingOperand "sleep"
  | some times => { millis := times.sum }
  | none =>
    complain "sleep" ("invalid time interval " ++ cited ((t.args.find? fun w => (millisOf? w).isNone).getD "") ++ "\n"
      ++ helpHint "sleep") 1

end SeedCorpus.StandIn.Tool
