/-
  A stand-in for `tr`, which exchanges, deletes and squeezes bytes.

  A set is written as bytes, ranges `a-z`, escapes and classes such as `[:upper:]`.  Bytes of the first set become the bytes
  of the second one at the same place; a second set that is too short goes on with its last byte.
-/
import SeedCorpus.StandIn.Tool.Echo
import SeedCorpus.StandIn.Tool.Options

namespace SeedCorpus.StandIn.Tool

/-- The bytes from one to another, both among them. -/
def byteRange (first last : UInt8) : Bytes :=
  (List.range (last.toNat + 1 - first.toNat)).map fun k => UInt8.ofNat (first.toNat + k)

/-- The bytes of a class. -/
def byteClass? (name : String) : Option Bytes :=
  let digits := byteRange 48 57
  let uppers := byteRange 65 90
  let lowers := byteRange 97 122
  match name with
  | "digit" => some digits
  | "upper" => some uppers
  | "lower" => some lowers
  | "alpha" => some (uppers ++ lowers)
  | "alnum" => some (digits ++ uppers ++ lowers)
  | "space" => some (byteRange 9 13 ++ [32])
  | "blank" => some [9, 32]
  | "cntrl" => some (byteRange 0 31 ++ [127])
  | "punct" => some (byteRange 33 47 ++ byteRange 58 64 ++ byteRange 91 96 ++ byteRange 123 126)
  | "graph" => some (byteRange 33 126)
  | "print" => some (byteRange 32 126)
  | "xdigit" => some (digits ++ byteRange 65 70 ++ byteRange 97 102)
  | _ => none

/-- The bytes of one character or escape in front of a text, and the rest. Three octal digits that are too much for a byte
count as two and a character. -/
def readSetChar (s : List Char) : Bytes × List Char :=
  match s with
  | '\\' :: c :: rest =>
    match controlByte? c with
    | some b => ([b], rest)
    | none =>
      if (octal? c).isSome then
        let (n, _, after) := leadingDigits octal? 8 3 (c :: rest)
        let (n, after) : Nat × List Char := if n < 256 then (n, after) else
          let (n, _, after) := leadingDigits octal? 8 2 (c :: rest)
          (n, after)
        ([UInt8.ofNat n], after)
      else (Utf8.encode (String.singleton c), rest)
  | c :: rest => (Utf8.encode (String.singleton c), rest)
  | [] => ([], [])

/-- A part of a set. -/
inductive SetPart where
  /-- Bytes. -/
  | bytes (b : Bytes)
  /-- A byte as often as it takes to make the set as long as another. -/
  | fill (b : Bytes)
deriving DecidableEq, Repr, Inhabited

/-- Why a text is no set. -/
inductive SetError where
  /-- A range goes downwards. -/
  | reversed (range : String)
  /-- There is no class of the name. -/
  | unknownClass (name : String)
deriving DecidableEq, Repr

/-- The text that reports the cause. -/
def SetError.message : SetError → String
  | .reversed range => "range-endpoints of '" ++ range ++ "' are in reverse collating sequence order"
  | .unknownClass name => "invalid character class '" ++ name ++ "'"

/-- A class, a character that is its own class or a repeated character, behind its opening bracket, and the rest. -/
def readBracketed (s : List Char) : Except SetError (Option (SetPart × List Char)) :=
  match s with
  | ':' :: rest =>
    match rest.dropWhile (· ≠ ':') with
    | ':' :: ']' :: after =>
      let name := String.ofList (rest.takeWhile (· ≠ ':'))
      match byteClass? name with
      | some bytes => .ok (some (.bytes bytes, after))
      | none => .error (.unknownClass name)
    | _ => .ok none
  | '=' :: c :: '=' :: ']' :: after => .ok (some (.bytes (Utf8.encode (String.singleton c)), after))
  | s =>
    match readSetChar s with
    | (b, '*' :: rest) =>
      let digits := rest.takeWhile Char.isDigit
      let base := if digits.head? = some '0' then 8 else 10
      match rest.drop digits.length with
      | ']' :: after =>
        let n := (leadingDigits digit? base digits.length digits).1
        .ok (some (if n = 0 then .fill b else .bytes (List.replicate n b).flatten, after))
      | _ => .ok none
    | _ => .ok none

/-- The parts of a set. The first argument is above its length. -/
def readSetFrom : Nat → List Char → Except SetError (List SetPart)
  | 0, _ => .ok []
  | _ + 1, [] => .ok []
  | steps + 1, c :: rest => do
    match ← if c = '[' then readBracketed rest else .ok none with
    | some (part, rest) => return part :: (← readSetFrom steps rest)
    | none =>
      let (first, rest) := readSetChar (c :: rest)
      match rest with
      | '-' :: d :: more =>
        let (last, more) := readSetChar (d :: more)
        match first, last with
        | [a], [b] =>
          if b < a then .error (.reversed (Utf8.decode [a, 45, b]))
          else return .bytes (byteRange a b) :: (← readSetFrom steps more)
        | _, _ => return .bytes (first ++ [45] ++ last) :: (← readSetFrom steps more)
      | _ => return .bytes first :: (← readSetFrom steps rest)

/-- The parts of a set. -/
def readSet (text : String) : Except SetError (List SetPart) := readSetFrom (text.length + 1) text.toList

/-- The bytes of a set that is to be as long as another. -/
def expand (parts : List SetPart) (length : Nat) : Bytes :=
  let fixed := (parts.map fun part => match part with
    | .bytes b => b.length
    | .fill _ => 0).sum
  parts.flatMap fun part => match part with
    | .bytes b => b
    | .fill b => (List.replicate (length - fixed) b).flatten

/-- The byte that a byte becomes; the last place of the first set in which it stands counts. -/
def exchangeByte : Bytes → Bytes → UInt8 → UInt8
  | [], _, b => b
  | _ :: _, [], b => b
  | a :: more, [last], b => if (a :: more).contains b then last else b
  | a :: more, c :: others, b =>
    if more.contains b then exchangeByte more others b else if a = b then c else b

/-- Bytes in which a byte of a set does not follow itself. -/
def squeeze (set : Bytes) (bytes : Bytes) : Bytes :=
  (bytes.foldl (fun done b => if done.head? = some b && set.contains b then done else b :: done) []).reverse

/-- The bytes that are not in a set. -/
def complement (set : Bytes) : Bytes := (byteRange 0 255).filter fun b => !set.contains b

/-- The options of `tr` by their names. -/
def trNames : List (String × String) :=
  [("complement", "c"), ("delete", "d"), ("squeeze-repeats", "s"), ("truncate-set1", "t")]

/-- The letters of the options in front, and the operands. -/
def trOptions : List String → Except BadOption (List Char × List String)
  | [] => .ok ([], [])
  | word :: rest =>
    match word.toList with
    | ['-', '-'] => .ok ([], rest)
    | '-' :: '-' :: name => do
      match letterOf? trNames (String.ofList name) with
      | none => .error (.unknownWord word)
      | some letter =>
        let (letters, operands) ← trOptions rest
        return (letter.toList ++ letters, operands)
    | '-' :: c :: more => do
      match (c :: more).find? fun c => !"cCdst".toList.contains c with
      | some c => .error (.unknownLetter c)
      | none =>
        let (letters, operands) ← trOptions rest
        return (c :: more ++ letters, operands)
    | _ => .ok ([], word :: rest)

/-- The end of `tr` with the wrong number of operands. -/
def trOperands (problem operand explanation : String) : Finish :=
  complain "tr" (problem ++ " operand" ++ (if problem = "missing" then " after" else "") ++ " " ++ cited operand ++ "\n"
    ++ (if explanation.isEmpty then "" else explanation ++ "\n") ++ helpHint "tr") 1

/-- Why the operands of `tr` are too few or too many. -/
def trMisuse? (delete squeezing : Bool) (operands : List String) : Option Finish :=
  match operands with
  | [] => some (missingOperand "tr")
  | [a] =>
    if delete == squeezing then
      some (trOperands "missing" a (if delete then "Two strings must be given when both deleting and squeezing repeats."
        else "Two strings must be given when translating."))
    else none
  | [_, b] =>
    if delete && !squeezing then
      some (trOperands "extra" b "Only one string may be given when deleting without squeezing repeats.")
    else none
  | _ :: _ :: c :: _ => some (trOperands "extra" c "")

/-- Exchanges, deletes and squeezes. -/
def tr : Tool := fun t =>
  match trOptions t.args with
  | .error cause => badOption "tr" cause 1
  | .ok (letters, operands) =>
    let delete := letters.contains 'd'
    let squeezing := letters.contains 's'
    let outside := letters.contains 'c' || letters.contains 'C'
    match trMisuse? delete squeezing operands, operands.mapM readSet with
    | some misuse, _ => misuse
    | none, .error cause => complain "tr" cause.message 1
    | none, .ok sets =>
      let first := expand (sets.headD []) 0
      let first := if outside then complement first else first
      let second := expand ((sets[1]?).getD []) first.length
      let kept := if delete then t.input.filter fun b => !first.contains b else t.input
      if sets.length = 1 then { output := if squeezing then squeeze first kept else kept, consumed := true }
      else if delete then { output := squeeze second kept, consumed := true }
      else if second.isEmpty then
        if letters.contains 't' then { output := kept, consumed := true }
        else complain "tr" "when not truncating set1, string2 must be non-empty" 1
      else
        let first := if letters.contains 't' then first.take second.length else first
        let exchanged := kept.map (exchangeByte first second)
        { output := if squeezing then squeeze second exchanged else exchanged, consumed := true }

end SeedCorpus.StandIn.Tool
