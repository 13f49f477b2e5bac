/-
  A stand-in for `test`: conditions on texts, numbers and files.

  A condition is a list of words.  `-a` and `-o` join conditions, `!` turns one round, and parentheses group.  The status is
  zero if the condition holds, one if it does not, and two if the words are no condition.
-/
import SeedCorpus.StandIn.Tool.Streams

namespace SeedCorpus.StandIn.Tool

/-- Why words are no condition. -/
inductive Doubt where
  /-- A word is compared as a number that is none. -/
  | noNumber (word : String)
  /-- A sign has nothing to work on. -/
  | noOperand (sign : String)
  /-- A word follows the condition, which the other word ends. -/
  | tooMuch (last next : String)
  /-- A parenthesis is not closed. -/
  | openParenthesis
  /-- The bracket is not closed. -/
  | openBracket
deriving DecidableEq, Repr

/-- What a program says about words that are no condition. Of two or three words, one is blamed by its place. -/
def Doubt.message (words : List String) : Doubt → String
  | .noNumber word => "invalid integer " ++ cited word
  | .noOperand sign => "missing argument after " ++ cited sign
  | .tooMuch _ next =>
    match words with
    | [first, second] =>
      if first.startsWith "-" && first.length = 2 then cited first ++ ": unary operator expected"
      else "missing argument after " ++ cited second
    | [_, sign, _] => cited sign ++ ": binary operator expected"
    | _ => "extra argument " ++ cited next
  | .openParenthesis => "')' expected"
  | .openBracket => "missing ']'"

/-- What a shell says about words that are no condition. -/
def Doubt.shellMessage (_ : List String) : Doubt → String
  | .noNumber word => "Illegal number: " ++ word
  | .noOperand sign => sign ++ ": argument expected"
  | .tooMuch last _ => last ++ ": unexpected operator"
  | .openParenthesis => "closing paren expected"
  | .openBracket => "missing ]"

/-! ## Questions -/

/-- Whether a word is a sign that asks something about one word. -/
def asksOne (word : String) : Bool :=
  match word.toList with
  | ['-', letter] => "rwxfdcbpugkstznhOGLSe".toList.contains letter
  | _ => false

/-- Whether a word is a sign that compares two words. -/
def asksTwo (word : String) : Bool :=
  ["=", "!=", "<", ">", "-eq", "-ne", "-ge", "-gt", "-le", "-lt", "-nt", "-ot", "-ef"].contains word

/-- Whether a question about one word holds. -/
def askOne (files : FileTree) (sign word : String) : Bool :=
  let isDevice := (files.device? word).isSome
  match sign, (files.find word).toOption with
  | "-z", _ => word.isEmpty
  | "-n", _ => !word.isEmpty
  | _, none => false
  | "-r", _ | "-w", _ | "-e", _ | "-O", _ | "-G", _ => true
  | "-d", some (.folder _) => true
  | "-x", some (.folder _) => true
  | "-s", some (.folder _) => true
  | "-f", some (.file _) => !isDevice
  | "-c", some (.file _) => isDevice
  | "-s", some (.file content) => !isDevice && !content.isEmpty
  | "-x", some (.file content) => (programIn? content).isSome
  | _, _ => false

/-- The whole number that a word is. -/
def integerOf (word : String) : Except Doubt Int :=
  let trim (s : List Char) : List Char := s.dropWhile (· = ' ')
  let s := (trim (trim word.toList).reverse).reverse
  let (negative, digits) : Bool × List Char := match s with
    | '-' :: digits => (true, digits)
    | '+' :: digits => (false, digits)
    | digits => (false, digits)
  match naturalOf? (String.ofList digits) with
  | some n => if n < 2 ^ 63 then .ok (if negative then -(n : Int) else n) else .error (.noNumber word)
  | none => .error (.noNumber word)

/-- Whether a comparison of two words holds. -/
def askTwo (files : FileTree) (left sign right : String) : Except Doubt Bool :=
  let compare (holds : Int → Int → Bool) : Except Doubt Bool := do
    return holds (← integerOf left) (← integerOf right)
  match sign with
  | "=" => .ok (left = right)
  | "!=" => .ok (left ≠ right)
  | "<" => .ok (left < right)
  | ">" => .ok (right < left)
  | "-eq" => compare fun a b => a = b
  | "-ne" => compare fun a b => a ≠ b
  | "-lt" => compare fun a b => a < b
  | "-le" => compare fun a b => a ≤ b
  | "-gt" => compare fun a b => b < a
  | "-ge" => compare fun a b => b ≤ a
  | "-ef" => .ok ((files.find left).isOk && ((files.locate left).toOption.map (·.parts)) =
      ((files.locate right).toOption.map (·.parts)))
  | _ => .ok false

/-! ## Conditions -/

/-- What is known after the front of a list of words: whether the condition there holds, its last word, and the rest. -/
structure Partly where
  /-- Whether the condition holds. -/
  holds : Bool
  /-- Its last word. -/
  last : String := ""
  /-- The words behind it. -/
  rest : List String := []
deriving DecidableEq, Repr, Inhabited

/-- Whether a sign that asks about one word stands for itself, by the words behind it. -/
def standsAlone : List String → Bool
  | [] => true
  | [_] => false
  | next :: _ :: _ => asksTwo next

/-- A condition without `-a` and `-o`. `whole` is for what stands in parentheses. The first argument is above the number of
words. -/
def readPlain (files : FileTree) (whole : List String → Except Doubt Partly) :
    Nat → List String → Except Doubt Partly
  | 0, _ => .ok { holds := false }
  | _ + 1, [] => .ok { holds := false }
  | steps + 1, word :: rest => do
    if word = "!" then
      let inner ← readPlain files whole steps rest
      return { inner with holds := !inner.holds }
    if word = "(" && !rest.isEmpty then
      let inner ← whole rest
      match inner.rest with
      | ")" :: rest => return { inner with last := ")", rest }
      | _ => .error .openParenthesis
    if asksOne word && !standsAlone rest then
      match rest with
      | operand :: rest => return { holds := askOne files word operand, last := operand, rest }
      | [] => .error (.noOperand word)
    match rest with
    | sign :: more =>
      if asksTwo sign then
        match more with
        | right :: rest => return { holds := ← askTwo files word sign right, last := right, rest }
        | [] => .error (.noOperand sign)
      else return { holds := !word.isEmpty, last := word, rest }
    | [] => return { holds := !word.isEmpty, last := word }

/-- Conditions joined by a word. The first argument is above their number. -/
def readJoined (word : String) (join : Bool → Bool → Bool) (part : List String → Except Doubt Partly) :
    Nat → List String → Except Doubt Partly
  | 0, _ => .ok { holds := false }
  | steps + 1, words => do
    let first ← part words
    match first.rest with
    | next :: rest =>
      if next = word then
        let second ← readJoined word join part steps rest
        return { second with holds := join first.holds second.holds }
      else return first
    | [] => return first

/-- A condition in front of words. The first argument is above the number of parentheses. -/
def readCondition (files : FileTree) : Nat → List String → Except Doubt Partly
  | 0, _ => .ok { holds := false }
  | depth + 1, words =>
    let count := words.length + 1
    readJoined "-o" (· || ·)
      (readJoined "-a" (· && ·) (readPlain files (readCondition files depth) count) count) count words

/-- Whether words without parentheses round them are a condition that holds. -/
def holdsOpen (files : FileTree) (words : List String) : Except Doubt Bool := do
  let result ← readCondition files (words.length + 1) words
  match result.rest with
  | next :: _ => .error (.tooMuch result.last next)
  | [] => return result.holds

/-- Whether words are a condition that holds. Three or four words are read by their number first: parentheses at both ends
and `!` in front are what they seem, unless the second of three words compares the others. -/
def holds (files : FileTree) (words : List String) : Except Doubt Bool :=
  match words with
  | ["(", word, ")"] => if asksTwo word then holdsOpen files words else holdsOpen files [word]
  | ["(", a, b, ")"] => holdsOpen files [a, b]
  | ["!", a, b] => if asksTwo a then holdsOpen files words else (!·) <$> holdsOpen files [a, b]
  | ["!", a, b, c] => (!·) <$> holdsOpen files [a, b, c]
  | words => holdsOpen files words

/-- Tells whether a condition holds. `message` words a complaint, and `name` is the name of the tool. -/
def testAs (message : List String → Doubt → String) (name : String) : Tool := fun t =>
  match holds t.files t.args with
  | .ok true => { status := 0 }
  | .ok false => { status := 1 }
  | .error doubt => complain name (message t.args doubt) 2

/-- Tells whether a condition holds. -/
def test (message : List String → Doubt → String) : Tool := testAs message "test"

/-- Tells whether a condition in brackets holds. -/
def bracket (message : List String → Doubt → String) : Tool := fun t =>
  if t.args.getLast? = some "]" then testAs message "[" { t with args := t.args.dropLast }
  else complain "[" (message t.args .openBracket) 2

end SeedCorpus.StandIn.Tool
