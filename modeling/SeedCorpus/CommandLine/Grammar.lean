/-
  Reading a command line.

  A grammar lists options, which all take a value and may stand anywhere, and operands, which are expected in order and
  must all be there.  Besides, every grammar knows the options for help and for the version.  Words are read from left to
  right, one step a word, and the first that cannot be right ends the reading; so does a wish for help or for the version,
  whatever would have followed.  A value is stored as soon as it is read, so a value that does not fit ends the reading as
  well.
-/
import SeedCorpus.CommandLine.Word

namespace SeedCorpus.CommandLine

/-! ## What can be wrong -/

/-- Why a command line is refused. -/
inductive Misuse where
  /-- There is no such option. -/
  | unknownOption (word : String)
  /-- An option that ends its word needs a value, and the next word is none. -/
  | missingValue (option : String)
  /-- The option takes no value. -/
  | needlessValue (option : String)
  /-- The option was given already. -/
  | repeatedOption (option : String)
  /-- The text is no value for the option or operand. -/
  | badValue (name text : String)
  /-- All operands are there already. -/
  | surplusOperand (word : String)
  /-- An operand is not there. -/
  | missingOperand (name : String)
deriving DecidableEq, Repr

/-- The text that reports the cause. -/
def Misuse.message : Misuse → String
  | .unknownOption word => "unexpected argument '" ++ word ++ "' found"
  | .missingValue option => "a value is required for '" ++ option ++ "' but none was supplied"
  | .needlessValue option => "no value is taken by '" ++ option ++ "'"
  | .repeatedOption option => "the argument '" ++ option ++ "' cannot be used multiple times"
  | .badValue name text => "invalid value '" ++ text ++ "' for '" ++ name ++ "'"
  | .surplusOperand word => "unexpected argument '" ++ word ++ "' found"
  | .missingOperand name => "the argument '" ++ name ++ "' was not provided"

/-- Why a reading ends without settings. -/
inductive Stop where
  /-- Help is wanted. -/
  | help
  /-- The version is wanted. -/
  | version
  /-- The command line is refused. -/
  | misuse (cause : Misuse)
deriving DecidableEq, Repr

/-! ## Grammars -/

variable {σ : Type}

/-- A place for a value in settings of the type `σ`. -/
structure Slot (σ : Type) where
  /-- The name, as it is written on the command line or in its place. -/
  name : String
  /-- What the value is for. -/
  purpose : String
  /-- The settings with the value of a text, if the text is one. -/
  store : String → σ → Option σ

/-- An option with a value. -/
structure Choice (σ : Type) extends Slot σ where
  /-- The letter that stands for the name. -/
  letter : Option Char := none

/-- Options and operands that make up settings. -/
structure Grammar (σ : Type) where
  /-- The options, in any order. -/
  choices : List (Choice σ)
  /-- The operands, in order. -/
  operands : List (Slot σ)

/-! ## Reading -/

/-- How far a reading is. -/
structure Progress (σ : Type) where
  /-- The settings so far. -/
  settings : σ
  /-- The operands still to come. -/
  expected : List (Slot σ)
  /-- The names of the options that have a value. -/
  given : List String := []
  /-- An option whose value is the next word. -/
  waiting : Option (Choice σ) := none
  /-- Whether every word to come is an operand. -/
  divided : Bool := false

/-- The settings with the value of a text. -/
def Slot.fill (slot : Slot σ) (text : String) (settings : σ) : Except Stop σ :=
  match slot.store text settings with
  | some settings => .ok settings
  | none => .error (.misuse (.badValue slot.name text))

/-- Takes a value of an option. -/
def Progress.choose (p : Progress σ) (choice : Choice σ) (text : String) : Except Stop (Progress σ) :=
  if p.given.contains choice.name then .error (.misuse (.repeatedOption choice.name))
  else do
    let settings ← choice.fill text p.settings
    return { p with settings, given := choice.name :: p.given, waiting := none }

/-- Takes an option, with its value or to wait for it. -/
def Progress.open (p : Progress σ) (choice : Choice σ) (value : Option String) : Except Stop (Progress σ) :=
  match value with
  | some text => p.choose choice text
  | none => .ok { p with waiting := some choice }

/-- Takes an operand. -/
def Progress.operand (p : Progress σ) (text : String) : Except Stop (Progress σ) :=
  match p.expected with
  | [] => .error (.misuse (.surplusOperand text))
  | slot :: expected => do
    let settings ← slot.fill text p.settings
    return { p with settings, expected }

/-- The end that an option without a value brings about. -/
def endOf (stop : Stop) (name : String) (value : Option String) : Stop :=
  if value.isSome then .misuse (.needlessValue name) else stop

/-- Takes a long option. -/
def Grammar.long (g : Grammar σ) (p : Progress σ) (name : String) (value : Option String) :
    Except Stop (Progress σ) :=
  match g.choices.find? (·.name = name) with
  | some choice => p.open choice value
  | none =>
    if name = "help" then .error (endOf .help name value)
    else if name = "version" then .error (endOf .version name value)
    else .error (.misuse (.unknownOption ("--" ++ name)))

/-- Takes a short option. A letter for help or the version ends the reading whatever follows it in the word. -/
def Grammar.short (g : Grammar σ) (p : Progress σ) (letter : Char) (value : Option String) :
    Except Stop (Progress σ) :=
  match g.choices.find? (·.letter = some letter) with
  | some choice => p.open choice value
  | none =>
    if letter = 'h' then .error .help
    else if letter = 'V' then .error .version
    else .error (.misuse (.unknownOption ("-" ++ String.singleton letter)))

/-- Reads a word. -/
def Grammar.step (g : Grammar σ) (p : Progress σ) (text : String) : Except Stop (Progress σ) :=
  match p.waiting, Word.ofText text with
  | some choice, .plain text => p.choose choice text
  | some choice, _ => .error (.misuse (.missingValue choice.name))
  | none, word =>
    if p.divided then p.operand text
    else
      match word with
      | .plain text => p.operand text
      | .divider => .ok { p with divided := true }
      | .long name value => g.long p name value
      | .short letter value => g.short p letter value

/-- The settings when all words are read. -/
def Progress.finish (p : Progress σ) : Except Stop σ :=
  match p.waiting, p.expected with
  | some choice, _ => .error (.misuse (.missingValue choice.name))
  | none, slot :: _ => .error (.misuse (.missingOperand slot.name))
  | none, [] => .ok p.settings

/-- Reads a command line, starting from settings with the defaults. -/
def Grammar.read (g : Grammar σ) (defaults : σ) (words : List String) : Except Stop σ := do
  (← words.foldlM g.step { settings := defaults, expected := g.operands }).finish

/-! ## Help -/

/-- A line about a slot. -/
def helpLine (shown purpose : String) : String := "  " ++ shown ++ "  " ++ purpose ++ "\n"

/-- How an option is written. -/
def Choice.shown (c : Choice σ) : String :=
  (match c.letter with
    | some letter => "-" ++ String.singleton letter ++ ", "
    | none => "    ") ++ "--" ++ c.name ++ " <" ++ c.name.toUpper ++ ">"

/-- The text for a wish for help. -/
def Grammar.help (g : Grammar σ) (program : String) : String :=
  let operands := g.operands.map fun slot => "<" ++ slot.name ++ ">"
  "Usage: " ++ " ".intercalate (program :: "[OPTIONS]" :: operands) ++ "\n\nArguments:\n"
    ++ String.join (g.operands.map fun slot => helpLine ("<" ++ slot.name ++ ">") slot.purpose)
    ++ "\nOptions:\n"
    ++ String.join (g.choices.map fun c => helpLine c.shown c.purpose)
    ++ helpLine "-h, --help" "Print help" ++ helpLine "-V, --version" "Print version"

end SeedCorpus.CommandLine
