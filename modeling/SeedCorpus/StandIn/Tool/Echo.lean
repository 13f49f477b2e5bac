/-
  A stand-in for `echo`: texts from arguments, with escapes.

  A backslash with a letter stands for a control character, with octal digits for a byte.  What else an escape can be depends
  on who reads it (`Escapes`): a zero may stand in front of three octal digits, `\c` may end all output, and hexadecimal
  digits may follow `\x`.  In a format of its own program digits have to follow there, and `\u` names a character.
-/
import SeedCorpus.StandIn.Tool.Basic

namespace SeedCorpus.StandIn.Tool

/-- Which escapes are known. -/
structure Escapes where
  /-- Whether a zero may stand in front of three octal digits. -/
  leadingZero : Bool
  /-- Whether `\c` ends all output. -/
  stops : Bool
  /-- Whether hexadecimal digits may follow `\x`. -/
  hex : Bool
  /-- Whether digits have to follow `\x`, and quotes and numbers of characters are known too. -/
  demanding : Bool
deriving DecidableEq, Repr, Inhabited

/-- What an escape stands for. -/
inductive Escaped where
  /-- Bytes. -/
  | bytes (b : Bytes)
  /-- The end of all output. -/
  | ending
  /-- Nothing, for the cause that a text gives. -/
  | wrong (text : String)
deriving DecidableEq, Repr, Inhabited

/-- The value of an octal digit. -/
def octal? (c : Char) : Option Nat := if '0' ≤ c ∧ c ≤ '7' then some (c.toNat - '0'.toNat) else none

/-- The value of a decimal digit. -/
def digit? (c : Char) : Option Nat := if '0' ≤ c ∧ c ≤ '9' then some (c.toNat - '0'.toNat) else none

/-- The value of a hexadecimal digit. -/
def hex? (c : Char) : Option Nat :=
  if '0' ≤ c ∧ c ≤ '9' then some (c.toNat - '0'.toNat)
  else if 'a' ≤ c ∧ c ≤ 'f' then some (c.toNat - 'a'.toNat + 10)
  else if 'A' ≤ c ∧ c ≤ 'F' then some (c.toNat - 'A'.toNat + 10)
  else none

/-- The number that at most `most` digits in front of a text stand for, how many there are, and the rest. -/
def leadingDigits (digit? : Char → Option Nat) (base most : Nat) (s : List Char) : Nat × Nat × List Char :=
  let ds := ((s.take most).takeWhile fun c => (digit? c).isSome).filterMap digit?
  (ds.foldl (fun n d => base * n + d) 0, ds.length, s.drop ds.length)

/-- The byte that an escape of one letter stands for. -/
def controlByte? : Char → Option UInt8
  | 'a' => some 7
  | 'b' => some 8
  | 't' => some 9
  | 'n' => some 10
  | 'v' => some 11
  | 'f' => some 12
  | 'r' => some 13
  | '\\' => some 92
  | _ => none

/-- A number in so many hexadecimal digits. -/
def hexText (width n : Nat) : String :=
  let digits := (Nat.toDigits 16 n).map Char.toUpper
  String.ofList (List.replicate (width - digits.length) '0' ++ digits)

/-- What the number of a character stands for, in so many hexadecimal digits: one that is no byte is not known. -/
def characterOf (letter : Char) (width n : Nat) : Escaped :=
  if 0xD800 ≤ n ∧ n ≤ 0xDFFF then .wrong ("invalid universal character name \\" ++ String.singleton letter
    ++ (hexText width n).toLower)
  else if n < 128 then .bytes [UInt8.ofNat n]
  else .bytes (Utf8.encode ("\\" ++ (if n < 65536 then "u" ++ hexText 4 n else "U" ++ hexText 8 n)))

/-- What an escape stands for, given what follows the backslash, and the rest. -/
def readEscape (e : Escapes) (s : List Char) : Escaped × List Char :=
  match s with
  | [] => (.bytes [92], [])
  | c :: rest =>
    let lacksDigits : Escaped := .wrong "missing hexadecimal number in escape"
    let itself : Escaped := .bytes (92 :: Utf8.encode (String.singleton c))
    match controlByte? c with
    | some b => (.bytes [b], rest)
    | none =>
      if c = 'e' then (.bytes [27], rest)
      else if c = 'c' ∧ e.stops then (.ending, [])
      else if (octal? c).isSome then
        let digits := if e.leadingZero ∧ c = '0' then rest else c :: rest
        let (n, _, rest) := leadingDigits octal? 8 3 digits
        (.bytes [UInt8.ofNat n], rest)
      else if c = 'x' ∧ e.hex then
        let (n, count, after) := leadingDigits hex? 16 2 rest
        if count > 0 then (.bytes [UInt8.ofNat n], after) else if e.demanding then (lacksDigits, []) else (itself, rest)
      else if (c = 'u' ∨ c = 'U') ∧ e.demanding then
        let width := if c = 'u' then 4 else 8
        let (n, count, after) := leadingDigits hex? 16 width rest
        if count < width then (lacksDigits, []) else (characterOf c width n, after)
      else if c = '\x22' ∧ e.demanding then (.bytes [34], rest)
      else (itself, rest)

/-- The bytes of a text with escapes, and what ends it before its end, if anything does. The first argument is above the
length of the text. -/
def unescapeFrom (e : Escapes) : Nat → List Char → Bytes × Option Escaped
  | 0, _ => ([], none)
  | _ + 1, [] => ([], none)
  | steps + 1, c :: rest =>
    let (first, rest) := if c = '\\' then readEscape e rest else (.bytes (Utf8.encode (String.singleton c)), rest)
    match first with
    | .bytes bytes =>
      let (more, stop) := unescapeFrom e steps rest
      (bytes ++ more, stop)
    | stop => ([], some stop)

/-- The bytes of a text with escapes, and what ends it before its end, if anything does. -/
def unescape (e : Escapes) (text : String) : Bytes × Option Escaped := unescapeFrom e (text.length + 1) text.toList

/-! ## The tools -/

/-- Prints a text, with escapes if some are known, and, unless it is told otherwise, a newline. -/
def echoLine (withNewline : Bool) (escapes : Option Escapes) (text : String) : Finish :=
  match escapes with
  | none => { output := Utf8.encode (if withNewline then text ++ "\n" else text) }
  | some e =>
    let (bytes, stop) := unescape e text
    { output := if withNewline && stop.isNone then bytes ++ [newline] else bytes }

/-- Whether a word consists of the letters of options of `echo`. -/
def isEchoOption (word : String) : Bool :=
  match word.toList with
  | '-' :: letters => !letters.isEmpty && letters.all fun c => c = 'n' || c = 'e' || c = 'E'
  | _ => false

/-- Prints the arguments. Options choose whether escapes count and whether a newline follows. -/
def echo : Tool := fun t =>
  let letters := ((t.args.takeWhile isEchoOption).map fun word => word.toList.drop 1).flatten
  let escapes := (letters.filter (· ≠ 'n')).getLast? = some 'e'
  let known : Escapes := { leadingZero := true, stops := true, hex := true, demanding := false }
  echoLine (!letters.contains 'n') (if escapes then some known else none) (" ".intercalate (t.args.dropWhile isEchoOption))

/-- Prints the arguments as the shell does it: escapes always count, and the only option leaves out the newline. -/
def shellEcho : Tool := fun t =>
  let known : Escapes := { leadingZero := true, stops := true, hex := false, demanding := false }
  match t.args with
  | "-n" :: words => echoLine false (some known) (" ".intercalate words)
  | words => echoLine true (some known) (" ".intercalate words)

end SeedCorpus.StandIn.Tool
