/-
  A stand-in for `expr`, which calculates with words.

  `expr` takes an expression of which every sign and every operand is a word of its own.  All values are texts; a text that
  is a whole number can be calculated with.  What need not be known is not calculated: a value that is empty or zero decides
  what `&` joins, any other one what `|` joins.
-/
import SeedCorpus.StandIn.Tool.Pattern.Written
import SeedCorpus.StandIn.Tool.Streams

namespace SeedCorpus.StandIn.Tool

/-- Why words have no value. -/
inductive Miscalculation where
  /-- An operand is missing behind a word. -/
  | noOperand (last : String)
  /-- A parenthesis is missing behind a word. -/
  | noClosing (last : String)
  /-- A word stands where a parenthesis has to be. -/
  | notClosing (word : String)
  /-- A parenthesis is closed that was not opened. -/
  | strayClosing
  /-- A word follows the expression. -/
  | tooMuch (word : String)
  /-- A text that is no whole number is calculated with. -/
  | noInteger
  /-- A number is divided by zero. -/
  | byZero
  /-- A text is no pattern. -/
  | badPattern (cause : PatternError)
deriving DecidableEq, Repr

/-- What is said of words that have no value. -/
def Miscalculation.message : Miscalculation → String
  | .noOperand last => "syntax error: missing argument after " ++ cited last
  | .noClosing last => "syntax error: expecting ')' after " ++ cited last
  | .notClosing word => "syntax error: expecting ')' instead of " ++ cited word
  | .strayClosing => "syntax error: unexpected ')'"
  | .tooMuch word => "syntax error: unexpected argument " ++ cited word
  | .noInteger => "non-integer argument"
  | .byZero => "division by zero"
  | .badPattern cause => cause.message

namespace Calculation

/-- The words that are left, and the one in front of them. -/
structure Words where
  /-- The word that was taken last. -/
  last : String
  /-- The words that are left. -/
  rest : List String
deriving DecidableEq, Repr, Inhabited

/-- Takes a value from the words that are left. -/
abbrev Reader := StateT Words (Except Miscalculation) String

/-- Whether a value is empty or zero. -/
def isNull (value : String) : Bool :=
  let digits := if value.startsWith "-" then value.toList.drop 1 else value.toList
  value.isEmpty || (!digits.isEmpty && digits.all (· = '0'))

/-- The whole number that a value is. -/
def integer? (value : String) : Option Int :=
  match value.toList with
  | '-' :: digits => (naturalOf? (String.ofList digits)).map fun n => -(n : Int)
  | _ => (naturalOf? value).map Int.ofNat

/-- The signs that join values, from the weakest to the strongest. -/
def levels : List (List String) :=
  [["|"], ["&"], ["<", "<=", "=", "==", "!=", ">=", ">"], ["+", "-"], ["*", "/", "%"], [":"]]

/-- One for yes and zero for no. -/
def answer (holds : Bool) : String := if holds then "1" else "0"

/-- Whether two values compare as a sign says: as numbers if both are, and else byte by byte. -/
def compares (sign left right : String) : Bool :=
  let order : Ordering := match integer? left, integer? right with
    | some a, some b => compare a b
    | _, _ => compareOfLessAndEq left right
  match sign with
  | "<" => order = .lt
  | "<=" => order ≠ .gt
  | "=" | "==" => order = .eq
  | "!=" => order ≠ .eq
  | ">=" => order ≠ .lt
  | _ => order = .gt

/-- What the front of a value has of a pattern: its first group, or how many bytes match if there is none. -/
def matching (value pattern : String) : Except Miscalculation String :=
  match Pattern.ofText .calculation pattern with
  | .error cause => .error (.badPattern cause)
  | .ok (p, groups) =>
    let bytes := Utf8.encode value
    match longest (p.ends { behind := none, rest := bytes }) with
    | none => .ok (if groups = 0 then "0" else "")
    | some place =>
      .ok (if groups = 0 then toString (bytes.length - place.rest.length) else Utf8.decode ((place.groups.lookup 1).getD []))

/-- What a sign makes of two values. -/
def join (sign left right : String) : Except Miscalculation String :=
  match sign with
  | "|" => .ok (if !isNull left then left else if isNull right then "0" else right)
  | "&" => .ok (if isNull left || isNull right then "0" else left)
  | ":" => matching left right
  | "+" | "-" | "*" | "/" | "%" =>
    match integer? left, integer? right with
    | some a, some b =>
      match sign with
      | "+" => .ok (toString (a + b))
      | "-" => .ok (toString (a - b))
      | "*" => .ok (toString (a * b))
      | sign =>
        if b = 0 then .error .byZero else .ok (toString (if sign = "/" then a.tdiv b else a.tmod b))
    | _, _ => .error .noInteger
  | sign => .ok (answer (compares sign left right))

/-- Where the first of the bytes of a set stands in a value, counted from one; zero if none does. -/
def placeOf (value set : String) : Nat :=
  let bytes := Utf8.encode value
  let front := bytes.takeWhile fun b => !(Utf8.encode set).contains b
  if front.length = bytes.length then 0 else front.length + 1

/-- A part of a value, by its first place, counted from one, and its length. -/
def part (value place length : String) : String :=
  match integer? place, integer? length with
  | some p, some n =>
    if p ≤ 0 || n ≤ 0 then "" else Utf8.decode (((Utf8.encode value).drop (p.toNat - 1)).take n.toNat)
  | _, _ => ""

/-- Takes a word. -/
def take : Reader := do
  let words ← get
  match words.rest with
  | [] => throw (.noOperand words.last)
  | word :: rest =>
    set ({ last := word, rest } : Words)
    return word

/-- Goes on with the signs of a level; what `operand` takes is worked out only if it has to be known. The first argument is
above the number of signs. -/
def more (operand : Bool → Reader) (level : List String) (counts : Bool) : Nat → String → Reader
  | 0, left => return left
  | steps + 1, left => do
    match (← get).rest with
    | [] => return left
    | sign :: rest =>
      if level.contains sign then
        set ({ last := sign, rest } : Words)
        let needed := if sign = "|" then isNull left else if sign = "&" then !isNull left else true
        let right ← operand (counts && needed)
        let value ← if counts || sign = "|" || sign = "&" then join sign left right else pure left
        more operand level counts steps value
      else return left

/-- Takes a value that signs of the given levels join; `counts` tells whether it has to be known. The first argument limits
how deep parentheses go. -/
def read : Nat → List (List String) → Bool → Reader
  | 0, _, _ => return ""
  | steps + 1, level :: stronger, counts => do
    let left ← read steps stronger counts
    more (read steps stronger) level counts (((← get).rest).length + 1) left
  | steps + 1, [], counts => do
    let operand := read steps [] counts
    match (← get).rest with
    | "+" :: _ =>
      let _ ← take
      take
    | "length" :: _ =>
      let _ ← take
      return toString (Utf8.encode (← operand)).length
    | "match" :: _ =>
      let _ ← take
      let value ← operand
      let pattern ← operand
      if counts then matching value pattern else return value
    | "index" :: _ =>
      let _ ← take
      let value ← operand
      return toString (placeOf value (← operand))
    | "substr" :: _ =>
      let _ ← take
      let value ← operand
      let place ← operand
      return part value place (← operand)
    | "(" :: _ =>
      let _ ← take
      let value ← read steps levels counts
      let words ← get
      match words.rest with
      | ")" :: _ =>
        let _ ← take
        return value
      | word :: _ => throw (.notClosing word)
      | [] => throw (.noClosing words.last)
    | ")" :: _ => throw .strayClosing
    | _ => take

/-- The value of words. -/
def valueOf (words : List String) : Except Miscalculation String := do
  let (value, words) ← (read (8 * (words.length + 1)) levels true).run { last := "", rest := words }
  match words.rest with
  | [] => return value
  | word :: _ => throw (.tooMuch word)

end Calculation

/-- Prints the value of its arguments. -/
def expr : Tool := fun t =>
  match (if t.args.head? = some "--" then t.args.drop 1 else t.args) with
  | [] => { missingOperand "expr" with status := 2 }
  | words =>
    match Calculation.valueOf words with
    | .ok value => { output := Utf8.encode (value ++ "\n"), status := if Calculation.isNull value then 1 else 0 }
    | .error cause => complain "expr" cause.message 2

end SeedCorpus.StandIn.Tool
