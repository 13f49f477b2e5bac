/-
  The stand-in shell: arithmetic.

  Numbers have 64 bits with a sign and wrap round.  A name stands for the number that its variable holds; a variable that is
  empty or not set holds zero.  `Expression.parse` reads an expression, `Expression.eval` finds its number and the variables
  that it sets.  What need not be known is not asked for: `0 && 1 / 0` is zero.
-/
import SeedCorpus.StandIn.Shell.Reader
import SeedCorpus.StandIn.Tool.Printf

namespace SeedCorpus.StandIn.Shell.Arithmetic

/-- Why an expression has no number. -/
inductive Trouble where
  /-- A number, a name or a parenthesis is missing. -/
  | noOperand
  /-- A sign is missing: a closing parenthesis or a colon. -/
  | noSign (sign : Char)
  /-- Something stands behind the expression. -/
  | tooMuch
  /-- A number is divided by zero. -/
  | byZero
  /-- The value of a variable is no number. -/
  | noNumber (value : String)
deriving DecidableEq, Repr

/-- What a shell says about an expression that has no number. -/
def Trouble.message (expression : String) : Trouble → String
  | .noNumber value => "Illegal number: " ++ value
  | trouble =>
    let reason := match trouble with
      | .noSign sign => "expecting '" ++ String.singleton sign ++ "'"
      | .tooMuch => "expecting EOF"
      | .byZero => "division by zero"
      | _ => "expecting primary"
    "arithmetic expression: " ++ reason ++ ": \x22" ++ expression ++ "\x22"

/-- An expression. -/
inductive Expression where
  /-- A number. -/
  | number (n : Int)
  /-- The number that a variable holds. -/
  | held (name : String)
  /-- A sign in front of an expression. -/
  | signed (sign : Char) (body : Expression)
  /-- A sign between two expressions. -/
  | joined (sign : String) (left right : Expression)
  /-- One of two expressions, by whether a third one is zero. -/
  | choice (condition first second : Expression)
  /-- A variable that is set, to what a sign makes of its number and another if there is a sign. -/
  | assigned (name : String) (sign : Option String) (body : Expression)
deriving Repr, Inhabited

/-! ## Reading -/

/-- Takes an expression from the front of a text. -/
abbrev ExpressionReader := List Char → Except Trouble (Expression × List Char)

/-- The signs that join two numbers, from the weakest level to the strongest. -/
def levels : List (List String) :=
  [["||"], ["&&"], ["|"], ["^"], ["&"], ["==", "!="], ["<=", ">=", "<", ">"], ["<<", ">>"], ["+", "-"], ["*", "/", "%"]]

/-- The longest sign in front of a text. -/
def signAt (s : List Char) : Option String :=
  let signs := levels.flatten
  match signs.find? fun sign => sign.length = 2 && sign.toList.isPrefixOf s with
  | some sign => some sign
  | none => signs.find? fun sign => sign.toList.isPrefixOf s

/-- What follows blanks and newlines. -/
def skip (s : List Char) : List Char := s.dropWhile fun c => c = ' ' || c = '\t' || c = '\n'

/-- What follows a sign, with blanks in front of it. -/
def expect (sign : Char) (s : List Char) : Except Trouble (List Char) :=
  match afterChar sign (skip s) with
  | some rest => .ok rest
  | none => .error (.noSign sign)

/-- Goes on with the signs of a level. The first argument is above their number. -/
def readMore (operand : ExpressionReader) (level : List String) : Nat → Expression → ExpressionReader
  | 0, _, _ => .error .noOperand
  | steps + 1, left, s => do
    match (signAt (skip s)).filter level.contains with
    | none => return (left, s)
    | some sign =>
      let (right, rest) ← operand ((skip s).drop sign.length)
      readMore operand level steps (.joined sign left right) rest

/-- An expression made with the signs of the given levels. -/
def readLevels (atom : ExpressionReader) : List (List String) → ExpressionReader
  | [] => atom
  | level :: stronger => fun s => do
    let (left, rest) ← readLevels atom stronger s
    readMore (readLevels atom stronger) level (rest.length + 1) left rest

/-- A number in front of a text: hexadecimal behind `0x`, octal behind another zero, and decimal otherwise. -/
def readNumber (s : List Char) : Option (Int × List Char) :=
  let (n, count, rest) : Nat × Nat × List Char := match s with
    | '0' :: 'x' :: digits => Tool.leadingDigits Tool.hex? 16 digits.length digits
    | '0' :: digits =>
      let (n, count, rest) := Tool.leadingDigits Tool.octal? 8 digits.length digits
      (n, count + 1, rest)
    | digits => Tool.leadingDigits Tool.digit? 10 digits.length digits
  if count = 0 then none else some (n, rest)

/-- A number, a name, or an expression in parentheses, with signs in front of it. `whole` reads what stands in
parentheses. The first argument is above the number of signs. -/
def readAtom (whole : ExpressionReader) : Nat → ExpressionReader
  | 0, _ => .error .noOperand
  | steps + 1, s => do
    match skip s with
    | '(' :: rest =>
      let (body, rest) ← whole rest
      return (body, ← expect ')' rest)
    | c :: rest =>
      if "-+!~".toList.contains c then
        let (body, rest) ← readAtom whole steps rest
        return (.signed c body, rest)
      else if isNameStart c then
        return (.held (String.ofList ((c :: rest).takeWhile isNameChar)), (c :: rest).dropWhile isNameChar)
      else
        match readNumber (c :: rest) with
        | some (n, rest) => return (.number n, rest)
        | none => .error .noOperand
    | [] => .error .noOperand

/-- The name that an expression sets, the sign that goes with it, if there is one, and the expression behind. -/
def readTarget (s : List Char) : Option (String × Option String × List Char) := do
  let s := skip s
  let c ← s.head?
  let name := String.ofList (s.takeWhile isNameChar)
  let rest := skip (s.dropWhile isNameChar)
  if !isNameStart c then none
  else
    match rest with
    | '=' :: '=' :: _ => none
    | '=' :: rest => some (name, none, rest)
    | rest =>
      let sign ← signAt rest
      if ["==", "!=", "<=", ">=", "<", ">", "||", "&&"].contains sign then none
      else some (name, some sign, ← afterChar '=' (rest.drop sign.length))

/-- An expression. The first argument is above the length of the text. -/
def readExpression : Nat → ExpressionReader
  | 0, _ => .error .noOperand
  | steps + 1, s => do
    match readTarget s with
    | some (name, sign, rest) =>
      let (body, rest) ← readExpression steps rest
      return (.assigned name sign body, rest)
    | none =>
      let (condition, rest) ← readLevels (readAtom (readExpression steps) (s.length + 1)) levels s
      match skip rest with
      | '?' :: rest =>
        let (first, rest) ← readExpression steps rest
        let (second, rest) ← readExpression steps (← expect ':' rest)
        return (.choice condition first second, rest)
      | _ => return (condition, rest)

/-- The expression that a text is. -/
def Expression.parse (text : String) : Except Trouble Expression := do
  let (expression, rest) ← readExpression (text.length + 1) text.toList
  if (skip rest).isEmpty then return expression else .error .tooMuch

/-! ## Numbers -/

/-- A number with 64 bits and a sign. -/
def wrap (n : Int) : Int := Int.bmod n (2 ^ 64)

/-- One for what holds, zero for what does not. -/
def ofBool (b : Bool) : Int := if b then 1 else 0

/-- What a sign in front makes of a number. -/
def signed (sign : Char) (n : Int) : Int :=
  match sign with
  | '-' => wrap (-n)
  | '!' => ofBool (n = 0)
  | '~' => -n - 1
  | _ => n

/-- What a sign makes of two numbers. Nothing can be divided by zero. -/
def join (sign : String) (a b : Int) : Except Trouble Int :=
  match sign with
  | "|" => .ok (Int64.ofInt a ||| Int64.ofInt b).toInt
  | "^" => .ok (Int64.ofInt a ^^^ Int64.ofInt b).toInt
  | "&" => .ok (Int64.ofInt a &&& Int64.ofInt b).toInt
  | "==" => .ok (ofBool (a = b))
  | "!=" => .ok (ofBool (a ≠ b))
  | "<=" => .ok (ofBool (a ≤ b))
  | ">=" => .ok (ofBool (b ≤ a))
  | "<" => .ok (ofBool (a < b))
  | ">" => .ok (ofBool (b < a))
  | "<<" => .ok (wrap (a * 2 ^ (b % 64).toNat))
  | ">>" => .ok (a.shiftRight (b % 64).toNat)
  | "+" => .ok (wrap (a + b))
  | "-" => .ok (wrap (a - b))
  | "*" => .ok (wrap (a * b))
  | "/" => if b = 0 then .error .byZero else .ok (wrap (a.tdiv b))
  | "%" => if b = 0 then .error .byZero else .ok (a.tmod b)
  | _ => .error .noOperand

/-- The number that a value of a variable stands for. -/
def numberOf (value : String) : Except Trouble Int :=
  let (n, valid) := Tool.numberOf value
  if valid then .ok (wrap n) else .error (.noNumber value)

/-- The number of an expression, and the variables that are set by then, the last one first. `lookup` gives the values of
variables that the expression does not set. -/
def Expression.eval (lookup : String → String) (expression : Expression) (set : List (String × String)) :
    Except Trouble (Int × List (String × String)) :=
  let valueOf (set : List (String × String)) (name : String) : Except Trouble Int :=
    numberOf ((set.lookup name).getD (lookup name))
  match expression with
  | .number n => .ok (wrap n, set)
  | .held name => do return (← valueOf set name, set)
  | .signed sign body => do
    let (n, set) ← body.eval lookup set
    return (Arithmetic.signed sign n, set)
  | .joined sign left right => do
    let (a, set) ← left.eval lookup set
    if sign = "&&" && a = 0 then return (0, set)
    if sign = "||" && a ≠ 0 then return (1, set)
    let (b, set) ← right.eval lookup set
    if sign = "&&" || sign = "||" then return (ofBool (b ≠ 0), set)
    return (← join sign a b, set)
  | .choice condition first second => do
    let (n, set) ← condition.eval lookup set
    if n ≠ 0 then first.eval lookup set else second.eval lookup set
  | .assigned name sign body => do
    let (n, set) ← body.eval lookup set
    let n ← match sign with
      | none => .ok n
      | some sign => join sign (← valueOf set name) n
    return (n, (name, toString n) :: set)

end SeedCorpus.StandIn.Shell.Arithmetic
