/-
  Options of the stand-in programs.

  A word with a dash in front holds letters, each of which is an option; a letter that takes a value ends the word, and the
  value is what follows it there, or else the next word.  Options and operands may follow each other in any order, up to a
  word of two dashes.
-/
import SeedCorpus.StandIn.Tool.Basic

namespace SeedCorpus.StandIn.Tool

/-- What is wrong with options. -/
inductive BadOption where
  /-- A letter is no option. -/
  | unknownLetter (letter : Char)
  /-- A word with two dashes is no option. -/
  | unknownWord (word : String)
  /-- A letter lacks its value. -/
  | lacksValue (letter : Char)
deriving DecidableEq, Repr

/-- What is said of it. -/
def BadOption.message : BadOption → String
  | .unknownLetter letter => "invalid option -- '" ++ String.singleton letter ++ "'"
  | .unknownWord word => "unrecognized option '" ++ word ++ "'"
  | .lacksValue letter => "option requires an argument -- '" ++ String.singleton letter ++ "'"

/-- Options, each with the value that it takes, and the operands. `valued` are the letters of the options that take a value,
`plain` the other letters. A dash and a number are the value of the letter `n` if `n` takes one. The first argument is above
the number of words. -/
def readOptions (valued plain : List Char) :
    Nat → List String → Except BadOption (List (Char × String) × List String)
  | 0, _ => .ok ([], [])
  | _ + 1, [] => .ok ([], [])
  | steps + 1, word :: rest =>
    let withOption (option : Char × String) (rest : List String) :
        Except BadOption (List (Char × String) × List String) := do
      let (options, operands) ← readOptions valued plain steps rest
      return (option :: options, operands)
    match word.toList with
    | '-' :: letter :: more =>
      if word = "--" then .ok ([], rest)
      else if letter = '-' then .error (.unknownWord word)
      else if valued.contains letter then
        match more, rest with
        | [], value :: rest => withOption (letter, value) rest
        | [], [] => .error (.lacksValue letter)
        | more, rest => withOption (letter, String.ofList more) rest
      else if valued.contains 'n' && letter.isDigit then withOption ('n', String.ofList (letter :: more)) rest
      else if plain.contains letter then
        withOption (letter, "") (if more.isEmpty then rest else String.ofList ('-' :: more) :: rest)
      else .error (.unknownLetter letter)
    | _ => do
      let (options, operands) ← readOptions valued plain steps rest
      return (options, word :: operands)

/-- The letter of the option that a name, or the front of just one name, stands for. -/
def letterOf? (names : List (String × String)) (name : String) : Option String :=
  match names.lookup name, names.filter fun n => n.1.startsWith name with
  | some letter, _ => some letter
  | none, [n] => some n.2
  | none, _ => none

/-- A word with the letter of an option in place of its name, if the name stands in a table. -/
def shortened (names : List (String × String)) (word : String) : String :=
  match word.toList with
  | '-' :: '-' :: rest =>
    let name := String.ofList (rest.takeWhile (· ≠ '='))
    match if name.isEmpty then none else letterOf? names name with
    | some letter => "-" ++ letter ++ String.ofList ((rest.dropWhile (· ≠ '=')).drop 1)
    | none => word
  | _ => word

/-- Options and operands of a tool. -/
def optionsOf (valued plain : String) (words : List String) : Except BadOption (List (Char × String) × List String) :=
  readOptions valued.toList plain.toList ((words.map fun w => w.length + 1).sum + 1) words

/-- The end of a tool that does not understand an option. -/
def badOption (name : String) (cause : BadOption) (status : Nat) : Finish :=
  complain name (cause.message ++ "\n" ++ helpHint name) status

/-- What a tool does with its options and operands, if it knows the options. -/
def withOptions (name valued plain : String) (t : Task) (badStatus : Nat)
    (use : List (Char × String) → List String → Finish) : Finish :=
  match optionsOf valued plain t.args with
  | .ok (options, operands) => use options operands
  | .error cause => badOption name cause badStatus

/-- What a tool does whose options also have names. -/
def withNamedOptions (name valued plain : String) (names : List (String × String)) (t : Task) (badStatus : Nat)
    (use : List (Char × String) → List String → Finish) : Finish :=
  withOptions name valued plain { t with args := t.args.map (shortened names) } badStatus use

end SeedCorpus.StandIn.Tool
