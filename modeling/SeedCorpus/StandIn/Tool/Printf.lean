/-
  A stand-in for `printf`: formatted output.

  A format is read as pieces: bytes that stand for themselves, and conversions, each of which takes the next argument, after
  others for its width and its precision where stars stand for these.  As long as arguments are left the format is used
  again; arguments that are missing count as empty or as zero.  A program and a shell that print know different conversions
  and escapes, and differ in their complaints.
-/
import SeedCorpus.StandIn.Tool.Floating

namespace SeedCorpus.StandIn.Tool

/-- Who prints. -/
inductive Host where
  /-- A program of its own. -/
  | program
  /-- A shell. -/
  | shell
deriving DecidableEq, Repr

/-- The escapes that count in a format. -/
def Host.formatEscapes : Host → Escapes
  | .program => { leadingZero := false, stops := true, hex := true, demanding := true }
  | .shell => { leadingZero := false, stops := false, hex := false, demanding := false }

/-- The escapes that count in an argument. -/
def Host.argumentEscapes : Host → Escapes
  | .program => { leadingZero := true, stops := true, hex := true, demanding := true }
  | .shell => { leadingZero := true, stops := true, hex := false, demanding := false }

/-- How numbers with a point are kept. -/
def Host.precision : Host → Precision
  | .program => .program
  | .shell => .shell

/-- How a conversion is written, apart from its letter. -/
structure Layout where
  /-- Whether to fill up on the right. -/
  left : Bool := false
  /-- Whether to fill up with zeros. -/
  zeros : Bool := false
  /-- Whether a sign stands in front of a number that is not negative. -/
  plus : Bool := false
  /-- Whether a blank stands in front of a number that is not negative. -/
  space : Bool := false
  /-- Whether the base is shown in front of a number, and the point behind one. -/
  sharp : Bool := false
  /-- Whether digits are grouped, which they are not in any case. -/
  grouped : Bool := false
  /-- The least number of bytes. -/
  width : Nat := 0
  /-- The number of digits or the greatest number of bytes, if there is one. -/
  precision : Option Nat := none
deriving DecidableEq, Repr, Inhabited

/-- A part of a format. -/
inductive Part where
  /-- Bytes that stand for themselves. -/
  | plain (bytes : Bytes)
  /-- A conversion of the next argument, with the width and the precision in arguments in front of it if need be. -/
  | conversion (layout : Layout) (widthGiven precisionGiven : Bool) (letter : Char)
deriving DecidableEq, Repr

/-- Why a format ends before its end. -/
inductive FormatEnd where
  /-- All output is to end. -/
  | stopped
  /-- Something after a percent sign is no conversion. -/
  | noConversion (text : String)
  /-- An escape is none. -/
  | noEscape (text : String)
deriving DecidableEq, Repr

/-! ## Reading a format -/

/-- The flags in front of a text, and the rest. -/
def readFlags (host : Host) (layout : Layout) : List Char → Layout × List Char
  | '-' :: rest => readFlags host { layout with left := true } rest
  | '0' :: rest => readFlags host { layout with zeros := true } rest
  | '+' :: rest => readFlags host { layout with plus := true } rest
  | ' ' :: rest => readFlags host { layout with space := true } rest
  | '#' :: rest => readFlags host { layout with sharp := true } rest
  | '\'' :: rest =>
    if host = .program then readFlags host { layout with grouped := true } rest else (layout, '\'' :: rest)
  | 'I' :: rest =>
    if host = .program then readFlags host { layout with grouped := true } rest else (layout, 'I' :: rest)
  | s => (layout, s)

/-- A number or a star in front of a text: the number, whether there is a star, and the rest. -/
def readSize (s : List Char) : Nat × Bool × List Char :=
  match s with
  | '*' :: rest => (0, true, rest)
  | s =>
    let (n, _, rest) := leadingDigits digit? 10 s.length s
    (n, false, rest)

/-- Whether a conversion with flags is known. -/
def knows (host : Host) (layout : Layout) (hasPrecision : Bool) (letter : Char) : Bool :=
  match host with
  | .shell => "sdiuoxXcbeEfFgGaA".toList.contains letter
  | .program =>
    "sdiuoxXceEfFgGaA".toList.contains letter
      && !(layout.grouped && "aAceEosxX".toList.contains letter)
      && !(layout.sharp && "cdisu".toList.contains letter)
      && !(layout.zeros && "cs".toList.contains letter)
      && !(hasPrecision && letter = 'c')

/-- A conversion, given what follows the percent sign, and the rest, or the text that is none. -/
def readConversion (host : Host) (s : List Char) : Except String (Part × List Char) :=
  match host, s with
  | .program, 'b' :: rest => .ok (.conversion {} false false 'b', rest)
  | .program, 'q' :: rest => .ok (.conversion {} false false 'q', rest)
  | _, s =>
    let (layout, rest) := readFlags host {} s
    let (width, widthGiven, rest) := readSize rest
    let (precision, precisionGiven, rest) : Option Nat × Bool × List Char := match rest with
      | '.' :: rest =>
        let (n, given, rest) := readSize rest
        (some n, given, rest)
      | rest => (none, false, rest)
    let rest := if host = .program then rest.dropWhile "lLhjtz".toList.contains else rest
    let text (after : List Char) : String := "%" ++ String.ofList (s.take (s.length - after.length))
    match rest with
    | [] => .error (text [])
    | letter :: after =>
      if knows host layout precision.isSome letter then
        .ok (.conversion { layout with width, precision } widthGiven precisionGiven letter, after)
      else .error (text after)

/-- The parts of a format up to what ends it. The first argument is above the length of the format. -/
def readFormat (host : Host) : Nat → List Char → List Part × Option FormatEnd
  | 0, _ => ([], none)
  | _ + 1, [] => ([], none)
  | steps + 1, '%' :: '%' :: rest =>
    let (parts, stop) := readFormat host steps rest
    (.plain [37] :: parts, stop)
  | steps + 1, '%' :: rest =>
    match readConversion host rest with
    | .error text => ([], some (.noConversion text))
    | .ok (part, rest) =>
      let (parts, stop) := readFormat host steps rest
      (part :: parts, stop)
  | steps + 1, c :: rest =>
    let (first, rest) :=
      if c = '\\' then readEscape host.formatEscapes rest else (.bytes (Utf8.encode (String.singleton c)), rest)
    match first with
    | .bytes bytes =>
      let (parts, stop) := readFormat host steps rest
      (.plain bytes :: parts, stop)
    | .ending => ([], some .stopped)
    | .wrong text => ([], some (.noEscape text))

/-! ## Numbers -/

/-- Why an argument is not printed as the number that it is. -/
inductive BadNumber where
  /-- It does not begin with a number. -/
  | missing
  /-- Something stands behind the number. -/
  | partly
  /-- The number is too great or too small. -/
  | outOfRange
  /-- Something stands behind a character that a number is given by; that is no failure. -/
  | moreCharacters (rest : String)
deriving DecidableEq, Repr

/-- The number of the character that an argument with a quote in front gives, and what is behind it. -/
def characterNumber? (host : Host) (arg : String) : Option (Nat × Option BadNumber) :=
  match Utf8.encode arg with
  | quote :: bytes =>
    if quote ≠ 39 && quote ≠ 34 then none
    else
      match host, bytes with
      | .shell, bytes => some ((bytes.head?.getD 0).toNat, none)
      | .program, [] => none
      | .program, b :: rest => some (b.toNat, if rest.isEmpty then none else some (.moreCharacters (Utf8.decode rest)))
  | [] => none

/-- The whole number in front of an argument: whether it is negative, its size, how many digits there are, and the rest. -/
def wholeNumber (arg : String) : Bool × Nat × Nat × List Char :=
  let (negative, s) := Floating.readSign (arg.toList.dropWhile fun c => c = ' ' || ('\t' ≤ c && c ≤ '\r'))
  let (n, count, rest) : Nat × Nat × List Char := match s with
    | '0' :: x :: ds =>
      let (n, count, rest) := leadingDigits hex? 16 ds.length ds
      if (x = 'x' ∨ x = 'X') ∧ 0 < count then (n, count, rest)
      else
        let (n, count, rest) := leadingDigits octal? 8 (ds.length + 1) (x :: ds)
        (n, count + 1, rest)
    | ds => leadingDigits digit? 10 ds.length ds
  (negative, n, count, rest)

/-- What is wrong with an argument, by the number of digits in front and by what follows them. -/
def fault? (arg : String) (count : Nat) (rest : List Char) (outOfRange : Bool) : Option BadNumber :=
  if arg.isEmpty then none
  else if count = 0 then some .missing
  else if outOfRange then some .outOfRange
  else if rest.isEmpty then none
  else some .partly

/-- The number that an argument stands for, and whether it is one as a whole. -/
def numberOf (arg : String) : Int × Bool :=
  match characterNumber? .shell arg with
  | some (n, _) => (n, true)
  | none =>
    let (negative, n, count, rest) := wholeNumber arg
    (if negative then -(n : Int) else n, (fault? arg count rest false).isNone)

/-- The number with a sign in 64 bits that an argument stands for, and what is wrong with it. -/
def signedNumber (host : Host) (arg : String) : Int × Option BadNumber :=
  match characterNumber? host arg with
  | some (n, cause) => (n, cause)
  | none =>
    let (negative, n, count, rest) := wholeNumber arg
    let value : Int := if negative then -(n : Int) else n
    let bounded := max (-(2 ^ 63)) (min (2 ^ 63 - 1) value)
    (bounded, fault? arg count rest (bounded ≠ value))

/-- The number without a sign in 64 bits that an argument stands for, and what is wrong with it. -/
def unsignedNumber (host : Host) (arg : String) : Int × Option BadNumber :=
  match characterNumber? host arg with
  | some (n, cause) => (n, cause)
  | none =>
    let (negative, n, count, rest) := wholeNumber arg
    let tooGreat : Bool := 2 ^ 64 ≤ n
    (if tooGreat then 2 ^ 64 - 1 else if negative then (-(n : Int)) % 2 ^ 64 else n, fault? arg count rest tooGreat)

/-- The number with a point that an argument stands for, and what is wrong with it. -/
def floatingNumber (host : Host) (arg : String) : Floating × Option BadNumber :=
  match characterNumber? host arg with
  | some (n, cause) => (.finite false n 0, cause)
  | none =>
    match Floating.read? host.precision arg.toList with
    | none => (.finite false 0 0, fault? arg 0 [] false)
    | some (value, outOfRange, rest) => (value, fault? arg 1 rest outOfRange)

/-! ## Conversions -/

/-- Fills bytes up to a width. -/
def pad (layout : Layout) (fill : UInt8) (bytes : Bytes) : Bytes :=
  let filling := List.replicate (layout.width - bytes.length) fill
  if layout.left then bytes ++ List.replicate (layout.width - bytes.length) 32 else filling ++ bytes

/-- A sign and digits, filled up to a width with zeros between them or with blanks. -/
def padNumber (layout : Layout) (zeros : Bool) (sign digits : List Char) : Bytes :=
  if zeros && !layout.left then
    let filling := List.replicate (layout.width - digits.length - sign.length) '0'
    Utf8.encode (String.ofList (sign ++ filling ++ digits))
  else pad layout 32 (Utf8.encode (String.ofList (sign ++ digits)))

/-- The sign in front of a number. -/
def signOf (layout : Layout) (negative : Bool) : List Char :=
  if negative then ['-'] else if layout.plus then ['+'] else if layout.space then [' '] else []

/-- A number in a base, with the digits that a precision asks for. -/
def numeral (base : Nat) (capital : Bool) (layout : Layout) (n : Int) : Bytes :=
  let ds := if n = 0 ∧ layout.precision = some 0 then [] else Nat.toDigits base n.natAbs
  let ds := if capital then ds.map Char.toUpper else ds
  let least := layout.precision.getD 1
  let ds := List.replicate (least - ds.length) '0' ++ ds
  let ds := if base = 8 && layout.sharp && ds.head? ≠ some '0' then '0' :: ds else ds
  let front :=
    if base = 10 then signOf layout (decide (n < 0))
    else if base = 16 && layout.sharp && n ≠ 0 then ['0', if capital then 'X' else 'x']
    else []
  padNumber layout (layout.zeros && layout.precision.isNone) front ds

/-- A number with a point, as the letter of a conversion wants it. -/
def floatingText (p : Precision) (layout : Layout) (letter : Char) (value : Floating) : Bytes :=
  let capital := letter.isUpper
  let cased (text : String) : String := if capital then text.toUpper else text
  match value with
  | .infinite negative => padNumber layout false (signOf layout negative) (cased "inf").toList
  | .undefined negative => padNumber layout false (signOf layout negative) (cased "nan").toList
  | .finite negative digits power =>
    let (num, den) := Floating.quotient digits power
    let places := layout.precision.getD 6
    let text := match letter.toLower with
      | 'f' => Floating.fixedText places layout.sharp num den
      | 'e' => Floating.exponentialText places layout.sharp num den
      | 'g' => Floating.generalText places layout.sharp num den
      | _ => Floating.hexadecimalText p layout.precision layout.sharp digits power
    let sign := signOf layout negative
    if letter.toLower = 'a' then padNumber layout layout.zeros (sign ++ (cased "0x").toList) ((cased text).toList.drop 2)
    else padNumber layout layout.zeros sign (cased text).toList

/-- What a conversion makes of an argument. -/
structure Converted where
  /-- The bytes. -/
  bytes : Bytes
  /-- What is wrong with the argument. -/
  cause : Option BadNumber := none
  /-- What ends all output, if anything does. -/
  stop : Option Escaped := none

/-- What a conversion makes of an argument. -/
def convert (host : Host) (layout : Layout) (letter : Char) (arg : String) : Converted :=
  let cut (bytes : Bytes) : Bytes := pad layout 32 ((layout.precision.map bytes.take).getD bytes)
  let based (base : Nat) (capital : Bool) : Converted :=
    let (n, cause) := unsignedNumber host arg
    { bytes := numeral base capital layout n, cause }
  match letter with
  | 's' => { bytes := cut (Utf8.encode arg) }
  | 'q' => { bytes := cut (Utf8.encode (quoted arg)) }
  | 'c' => { bytes := pad layout 32 [(Utf8.encode arg).head?.getD 0] }
  | 'b' =>
    let (bytes, stop) := unescape host.argumentEscapes arg
    { bytes := cut bytes, stop }
  | 'o' => based 8 false
  | 'x' => based 16 false
  | 'X' => based 16 true
  | 'u' =>
    let (n, cause) := unsignedNumber host arg
    { bytes := numeral 10 false { layout with plus := false, space := false } n, cause }
  | 'd' | 'i' =>
    let (n, cause) := signedNumber host arg
    { bytes := numeral 10 false layout n, cause }
  | letter =>
    let (value, cause) := floatingNumber host arg
    { bytes := floatingText host.precision layout letter value, cause }

/-- What is said of an argument that is not printed as the number that it is. -/
def BadNumber.message (host : Host) (arg : String) : BadNumber → String
  | .moreCharacters rest => "warning: " ++ rest ++ ": character(s) following character constant have been ignored"
  | cause =>
    let reason := match host, cause with
      | _, .outOfRange => "Numerical result out of range"
      | .program, .partly => "value not completely converted"
      | .program, _ => "expected a numeric value"
      | .shell, .partly => "not completely converted"
      | .shell, _ => "expected numeric value"
    match host with
    | .program => cited arg ++ ": " ++ reason
    | .shell => arg ++ ": " ++ reason

/-! ## Printing -/

/-- How far printing has come. -/
structure Printing where
  /-- The results, the last ones first. -/
  output : List Bytes := []
  /-- The complaints, the last one first. -/
  errors : List String := []
  /-- The status so far. -/
  status : Nat := 0
  /-- The arguments that are left. -/
  args : List String
  /-- Whether all output has ended. -/
  ended : Bool := false

namespace Printing

/-- Takes note of what is wrong with an argument. -/
def blame (host : Host) (arg : String) (cause : Option BadNumber) (p : Printing) : Printing :=
  match cause with
  | none => p
  | some cause =>
    let harmless := match cause with
      | .moreCharacters _ => true
      | _ => false
    { p with
      errors := ("printf: " ++ cause.message host arg ++ "\n") :: p.errors
      status := if harmless then p.status else 1 }

/-- The number in the next argument, which gives a width or a precision. -/
def takeSize (host : Host) (p : Printing) : Int × Printing :=
  match p.args with
  | [] => (0, p)
  | arg :: rest =>
    let (n, cause) := signedNumber host arg
    (n, { p with args := rest }.blame host arg cause)

/-- What is printed of one use of a format. -/
def parts (host : Host) : List Part → Printing → Printing
  | [], p => p
  | .plain bytes :: more, p => parts host more { p with output := bytes :: p.output }
  | .conversion layout widthGiven precisionGiven letter :: more, p =>
    let (width, p) := if widthGiven then p.takeSize host else ((layout.width : Int), p)
    let (precision, p) : Option Int × Printing :=
      if precisionGiven then
        let hasArgument := !p.args.isEmpty
        let (n, p) := p.takeSize host
        (if hasArgument || host = .shell then some n else some 0, p)
      else (layout.precision.map Int.ofNat, p)
    let layout := { layout with
      left := layout.left || decide (width < 0), width := width.natAbs
      precision := match precision with
        | some n => if n < 0 then none else some n.toNat
        | none => none }
    let arg := p.args.head?.getD ""
    let done := convert host layout letter arg
    let p := { p with output := done.bytes :: p.output, args := p.args.drop 1 }.blame host arg done.cause
    match done.stop with
    | none => parts host more p
    | some (.wrong text) => { p with errors := ("printf: " ++ text ++ "\n") :: p.errors, status := 1, ended := true }
    | some _ => { p with ended := true }

end Printing

/-- Whether a format takes arguments. -/
def takesArguments (parts : List Part) : Bool :=
  parts.any fun
    | .conversion .. => true
    | .plain _ => false

/-- Uses a format until no arguments are left or something ends it. The first argument is above their number. -/
def printAll (host : Host) (format : List Part) (stop : Option FormatEnd) : Nat → Printing → Printing
  | 0, p => p
  | rounds + 1, p =>
    let p := p.parts host format
    if p.ended then p
    else
      match stop with
      | some .stopped => { p with ended := true }
      | some (.noEscape text) => { p with errors := ("printf: " ++ text ++ "\n") :: p.errors, status := 1, ended := true }
      | some (.noConversion text) =>
        let (reason, status) : String × Nat := match host with
          | .program => (text ++ ": invalid conversion specification", 1)
          | .shell =>
            (if (text.toList.drop 1).all ("#-+ .0123456789*".toList.contains) then "missing format character"
              else text ++ ": invalid directive", 2)
        { p with errors := ("printf: " ++ reason ++ "\n") :: p.errors, status, ended := true }
      | none => if takesArguments format && !p.args.isEmpty then printAll host format stop rounds p else p

/-- Prints arguments by a format. -/
def printf (host : Host) : Tool := fun t =>
  match (if t.args.head? = some "--" then t.args.drop 1 else t.args) with
  | [] => if host = .shell then complain "printf" "usage: printf format [arg ...]" 2 else missingOperand "printf"
  | format :: args =>
    if host = .shell && t.args.head? = some format && format.startsWith "-" && format ≠ "-" then
      complain "printf" ("Illegal option -" ++ String.ofList ((format.toList.drop 1).take 1)) 2
    else
      let (parts, stop) := readFormat host (format.length + 1) format.toList
      let p := printAll host parts stop (args.length + 1) { args }
      let excess := match host, p.ended, p.args with
        | .program, false, arg :: _ => "printf: warning: ignoring excess arguments, starting with " ++ cited arg ++ "\n"
        | _, _, _ => ""
      { output := p.output.reverse.flatten
        errors := Utf8.encode (String.join p.errors.reverse ++ excess)
        status := p.status }

end SeedCorpus.StandIn.Tool
