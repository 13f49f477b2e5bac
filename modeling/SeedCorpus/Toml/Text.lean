/-
  Texts and keys in a TOML document.

  A text stands in double quotes, where a backslash escapes, or in single quotes, where nothing does.  With three quotes it
  may go over several lines; then a newline right behind the opening quotes does not count, each newline counts as one line
  feed, one or two quotes may stand in the text, also in front of the closing ones, and in double quotes a backslash at the
  end of a line skips to the next character that is not blank.
-/
import SeedCorpus.Text.Reader
import SeedCorpus.Toml.Number

namespace SeedCorpus.Toml

/-! ## Characters -/

/-- Whether a character is a blank within a line. -/
def isBlank (c : Char) : Bool := c = ' ' || c = '\t'

/-- Whether a character may stand in a comment and in a text: a tab, or no control character. -/
def isPrintable (c : Char) : Bool := c = '\t' || (32 ≤ c.toNat && c.toNat ≠ 127)

/-- The rest of a text behind a newline. -/
def afterNewline : List Char → Option (List Char)
  | '\n' :: rest => some rest
  | '\r' :: '\n' :: rest => some rest
  | _ => none

/-- The character that an escape of one letter stands for. -/
def escaped : Char → Option Char
  | 'b' => some (Char.ofNat 8)
  | 't' => some '\t'
  | 'n' => some '\n'
  | 'f' => some (Char.ofNat 12)
  | 'r' => some '\r'
  | '\x22' => some '\x22'
  | '\\' => some '\\'
  | _ => none

/-- The character whose number is written in base 16. -/
def charOfHex (ds : List Char) : Option Char := do
  let n := Number.valueOf 16 (← ds.mapM (Number.digitIn 16))
  if n.isValidChar then some (Char.ofNat n) else none

/-! ## Texts on one line -/

/-- The text up to the closing double quote. -/
def basicText : Reader (List Char)
  | [] => none
  | '\x22' :: rest => some ([], rest)
  | '\\' :: 'u' :: a :: b :: c :: d :: rest => do
    let x ← charOfHex [a, b, c, d]
    let (s, rest) ← basicText rest
    return (x :: s, rest)
  | '\\' :: 'U' :: a :: b :: c :: d :: e :: f :: g :: h :: rest => do
    let x ← charOfHex [a, b, c, d, e, f, g, h]
    let (s, rest) ← basicText rest
    return (x :: s, rest)
  | '\\' :: c :: rest => do
    let x ← escaped c
    let (s, rest) ← basicText rest
    return (x :: s, rest)
  | c :: rest => do
    if c = '\\' || !isPrintable c then none
    else
      let (s, rest) ← basicText rest
      return (c :: s, rest)

/-- The text up to the closing single quote. -/
def literalText : Reader (List Char)
  | [] => none
  | '\x27' :: rest => some ([], rest)
  | c :: rest => do
    if !isPrintable c then none
    else
      let (s, rest) ← literalText rest
      return (c :: s, rest)

/-! ## Texts over several lines -/

/-- The quotes in front of three closing quotes that still belong to the text: two at most. -/
def quotesBeforeEnd (quote : Char) : List Char → List Char × List Char
  | a :: b :: rest =>
    if a = quote ∧ b = quote then ([a, b], rest) else if a = quote then ([a], b :: rest) else ([], a :: b :: rest)
  | [a] => if a = quote then ([a], []) else ([], [a])
  | [] => ([], [])

/-- What is left when blanks and newlines are skipped. -/
def skipBlankLines : List Char → List Char
  | [] => []
  | '\r' :: '\n' :: rest => skipBlankLines rest
  | c :: rest => if isBlank c || c = '\n' then skipBlankLines rest else c :: rest

/-- The text up to three closing double quotes. The first argument is more than the number of steps that can be needed. -/
def basicLines : Nat → Reader (List Char)
  | 0, _ => none
  | _ + 1, [] => none
  | _ + 1, '\x22' :: '\x22' :: '\x22' :: rest => some (quotesBeforeEnd '\x22' rest)
  | steps + 1, '\\' :: 'u' :: a :: b :: c :: d :: rest => do
    let x ← charOfHex [a, b, c, d]
    let (s, rest) ← basicLines steps rest
    return (x :: s, rest)
  | steps + 1, '\\' :: 'U' :: a :: b :: c :: d :: e :: f :: g :: h :: rest => do
    let x ← charOfHex [a, b, c, d, e, f, g, h]
    let (s, rest) ← basicLines steps rest
    return (x :: s, rest)
  | steps + 1, '\\' :: rest =>
    match afterNewline (rest.dropWhile isBlank), rest with
    | some below, _ => basicLines steps (skipBlankLines below)
    | none, c :: rest => do
      let x ← escaped c
      let (s, rest) ← basicLines steps rest
      return (x :: s, rest)
    | none, [] => none
  | steps + 1, c :: rest => do
    match afterNewline (c :: rest) with
    | some below =>
      let (s, rest) ← basicLines steps below
      return ('\n' :: s, rest)
    | none =>
      if !isPrintable c then none
      else
        let (s, rest) ← basicLines steps rest
        return (c :: s, rest)

/-- The text up to three closing single quotes. -/
def literalLines : Reader (List Char)
  | [] => none
  | '\x27' :: '\x27' :: '\x27' :: rest => some (quotesBeforeEnd '\x27' rest)
  | '\r' :: '\n' :: rest => do
    let (s, rest) ← literalLines rest
    return ('\n' :: s, rest)
  | c :: rest => do
    if c = '\n' || isPrintable c then
      let (s, rest) ← literalLines rest
      return (c :: s, rest)
    else none

/-- The rest of a text without a newline in front of it. -/
def dropNewline (s : List Char) : List Char := (afterNewline s).getD s

/-- A text in any of the four forms. -/
def readText : Reader String
  | '\x22' :: '\x22' :: '\x22' :: rest => do
    let (s, rest) ← basicLines (rest.length + 1) (dropNewline rest)
    return (String.ofList s, rest)
  | '\x22' :: rest => do
    let (s, rest) ← basicText rest
    return (String.ofList s, rest)
  | '\x27' :: '\x27' :: '\x27' :: rest => do
    let (s, rest) ← literalLines (dropNewline rest)
    return (String.ofList s, rest)
  | '\x27' :: rest => do
    let (s, rest) ← literalText rest
    return (String.ofList s, rest)
  | _ => none

/-! ## Keys -/

/-- Whether a character may stand in a key without quotes. -/
def isBareKeyChar (c : Char) : Bool :=
  ('a' ≤ c && c ≤ 'z') || ('A' ≤ c && c ≤ 'Z') || Number.isDigit c || c = '_' || c = '-'

/-- One part of a key: bare, or in quotes on one line. -/
def keyPart : Reader String
  | '\x22' :: rest => do
    let (s, rest) ← basicText rest
    return (String.ofList s, rest)
  | '\x27' :: rest => do
    let (s, rest) ← literalText rest
    return (String.ofList s, rest)
  | s =>
    let front := s.takeWhile isBareKeyChar
    if front.isEmpty then none else some (String.ofList front, s.dropWhile isBareKeyChar)

/-- The most parts that a key can have. -/
def maxKeyParts : Nat := 79

/-- A key with dots between its parts and blanks around them. The first argument limits the number of parts. -/
def readKey : Nat → Reader (List String)
  | 0, _ => none
  | parts + 1, s => do
    let (part, s) ← keyPart (s.dropWhile isBlank)
    match s.dropWhile isBlank with
    | '.' :: rest =>
      let (others, rest) ← readKey parts rest
      return (part :: others, rest)
    | rest => some ([part], rest)

end SeedCorpus.Toml
