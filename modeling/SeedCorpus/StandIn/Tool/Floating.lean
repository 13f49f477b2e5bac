/-
  Numbers with a point, as the stand-in for `printf` needs them.

  A program keeps such a number as a whole number times a power of two, and the whole number has a limited number of binary
  digits (`Precision`).  What is written in decimal digits is rounded to the nearest such number, and digits that are printed
  are those of the number that is kept, rounded again; of two numbers that are equally near the even one is taken.  All this
  is exact arithmetic on whole numbers.
-/
import SeedCorpus.StandIn.Tool.Echo

namespace SeedCorpus.StandIn.Tool

/-- A number as it is kept. -/
inductive Floating where
  /-- A whole number times a power of two, maybe with a sign. -/
  | finite (negative : Bool) (digits : Nat) (power : Int)
  /-- A number that is too great, or said to be without bounds. -/
  | infinite (negative : Bool)
  /-- No number. -/
  | undefined (negative : Bool)
deriving DecidableEq, Repr, Inhabited

/-- How numbers are kept. -/
structure Precision where
  /-- The number of binary digits. -/
  bits : Nat
  /-- The least power of two. -/
  least : Int
  /-- The power of two that numbers stay below. -/
  most : Int
  /-- How many of the digits stand in front of the point when they are shown in hexadecimal. -/
  shownBits : Nat
deriving DecidableEq, Repr, Inhabited

/-- The precision that shells calculate with. -/
def Precision.shell : Precision := { bits := 53, least := -1074, most := 1024, shownBits := 1 }

/-- The precision that programs calculate with. -/
def Precision.program : Precision := { bits := 64, least := -16445, most := 16384, shownBits := 4 }

/-- A quotient rounded to the nearest whole number, a half to the even one. -/
def nearest (num den : Nat) : Nat :=
  let q := num / den
  let twice := 2 * (num % den)
  if twice < den then q else if den < twice then q + 1 else q + q % 2

/-- A quotient of two powers of a base, by the exponent. -/
def powers (base : Nat) (exponent : Int) : Nat × Nat :=
  if exponent < 0 then (1, base ^ exponent.natAbs) else (base ^ exponent.natAbs, 1)

namespace Floating

/-- The quotient that digits and a power of two stand for. -/
def quotient (digits : Nat) (power : Int) : Nat × Nat :=
  let (a, b) := powers 2 power
  (digits * a, b)

/-- A quotient as it is kept, and whether it is too great or too small to be kept well. -/
def ofQuotient (p : Precision) (negative : Bool) (num den : Nat) : Floating × Bool :=
  if num = 0 then (.finite negative 0 0, false)
  else
    -- the place of the highest binary digit, or one above it
    let top : Int := (Nat.log2 num : Int) - Nat.log2 den + 1
    let power := max p.least (top - p.bits)
    let scaled (power : Int) : Nat × Nat :=
      let (a, b) := powers 2 power
      (num * b, den * a)
    let power := if p.least < power ∧ (scaled power).1 / (scaled power).2 < 2 ^ (p.bits - 1) then power - 1 else power
    let (a, b) := scaled power
    let digits := nearest a b
    let (digits, power) := if digits = 2 ^ p.bits then (digits / 2, power + 1) else (digits, power)
    if p.most < power + p.bits ∧ 2 ^ (p.bits - 1) ≤ digits then (.infinite negative, true)
    else (.finite negative digits power, decide (digits < 2 ^ (p.bits - 1)) && a % b ≠ 0)

/-! ## Reading -/

/-- A sign in front of a text: whether it is a minus, and the rest. -/
def readSign (s : List Char) : Bool × List Char :=
  match s with
  | '-' :: rest => (true, rest)
  | '+' :: rest => (false, rest)
  | s => (false, s)

/-- What follows a word in small or capital letters, if the text begins with it. -/
def afterWord (word : String) (s : List Char) : Option (List Char) :=
  if word.toList.isPrefixOf ((s.take word.length).map Char.toLower) then some (s.drop word.length) else none

/-- Digits with a point in them: the number that they are without the point, how many stand behind it, how many there are,
and the rest. -/
def readDigits (digit? : Char → Option Nat) (base : Nat) (s : List Char) : Nat × Nat × Nat × List Char :=
  let (whole, count, rest) := leadingDigits digit? base s.length s
  match rest with
  | '.' :: more =>
    let (fraction, places, after) := leadingDigits digit? base more.length more
    if count + places = 0 then (0, 0, 0, s) else (whole * base ^ places + fraction, places, count + places, after)
  | rest => (whole, 0, count, rest)

/-- The exponent behind a letter, and the rest; none if digits are missing. -/
def readExponent (letter : Char) (s : List Char) : Int × List Char :=
  match s with
  | c :: rest =>
    let (negative, digits) := readSign rest
    let (n, count, after) := leadingDigits digit? 10 digits.length digits
    if c.toLower = letter ∧ 0 < count then (if negative then -(n : Int) else n, after) else (0, s)
  | [] => (0, [])

/-- The exponent that no number is shown with. -/
def farExponent : Int := 20000

/-- The number in front of a text, whether it is too great or too small, and the rest; none if there is no number. -/
def read? (p : Precision) (s : List Char) : Option (Floating × Bool × List Char) :=
  let (negative, s) := readSign (s.dropWhile fun c => c = ' ' || ('\t' ≤ c && c ≤ '\r'))
  let limited (base : Nat) (digits : Nat) (exponent : Int) : Floating × Bool :=
    if digits = 0 then (.finite negative 0 0, false)
    else
      let size : Int := exponent + (if base = 10 then (Nat.toDigits 10 digits).length else Nat.log2 digits)
      if farExponent < size then (.infinite negative, true)
      else if size < -farExponent then (.finite negative 0 0, true)
      else
        let (a, b) := powers base exponent
        ofQuotient p negative (digits * a) b
  match afterWord "infinity" s <|> afterWord "inf" s, afterWord "nan" s with
  | some rest, _ => some (.infinite negative, false, rest)
  | none, some rest =>
    let inside := (rest.drop 1).takeWhile fun c => c.isAlphanum || c = '_'
    let closed := rest.head? = some '(' && (rest.drop (inside.length + 1)).head? = some ')'
    some (.undefined negative, false, if closed then rest.drop (inside.length + 2) else rest)
  | none, none =>
    let hexadecimal : Option (Nat × Nat × Nat × List Char) := match s with
      | '0' :: x :: digits => if x = 'x' ∨ x = 'X' then some (readDigits hex? 16 digits) else none
      | _ => none
    match hexadecimal.filter fun (_, _, count, _) => 0 < count with
    | some (digits, places, _, rest) =>
      let (exponent, rest) := readExponent 'p' rest
      let (value, strange) := limited 2 digits (exponent - 4 * places)
      some (value, strange, rest)
    | none =>
      let (digits, places, count, rest) := readDigits digit? 10 s
      if count = 0 then none
      else
        let (exponent, rest) := readExponent 'e' rest
        let (value, strange) := limited 10 digits (exponent - places)
        some (value, strange, rest)

/-! ## Showing -/

/-- Digits with a point in front of the last ones, or, if there are no last ones, maybe with a point at the end. -/
def withPoint (places : Nat) (keepPoint : Bool) (digits : List Char) : String :=
  let digits := List.replicate (places + 1 - digits.length) '0' ++ digits
  let whole := String.ofList (digits.take (digits.length - places))
  if places = 0 then (if keepPoint then whole ++ "." else whole)
  else whole ++ "." ++ String.ofList (digits.drop (digits.length - places))

/-- A quotient with so many digits behind the point. -/
def fixedText (places : Nat) (keepPoint : Bool) (num den : Nat) : String :=
  withPoint places keepPoint (Nat.toDigits 10 (nearest (num * 10 ^ places) den))

/-- The place of the first decimal digit of a quotient that is not zero: zero for one in front of the point. -/
def firstPlace (num den : Nat) : Int :=
  if den ≤ num then (Nat.toDigits 10 (num / den)).length - 1
  else
    let upper := (den + num - 1) / num
    let length := (Nat.toDigits 10 upper).length
    if upper = 10 ^ (length - 1) then 1 - (length : Int) else -(length : Int)

/-- The first decimal digits of a quotient, so many behind the first of them, and the place of the first. -/
def firstDigits (places : Nat) (num den : Nat) : Nat × Int :=
  if num = 0 then (0, 0)
  else
    let place := firstPlace num den
    let (a, b) := powers 10 ((places : Int) - place)
    let digits := nearest (num * a) (den * b)
    if digits = 10 ^ (places + 1) then (10 ^ places, place + 1) else (digits, place)

/-- An exponent behind its letter, with its sign and at least so many digits. -/
def exponentText (letter : String) (width : Nat) (exponent : Int) : String :=
  let digits := Nat.toDigits 10 exponent.natAbs
  letter ++ (if exponent < 0 then "-" else "+") ++ String.ofList (List.replicate (width - digits.length) '0' ++ digits)

/-- A quotient with one digit in front of the point, so many behind it, and an exponent. -/
def exponentialText (places : Nat) (keepPoint : Bool) (num den : Nat) : String :=
  let (digits, place) := firstDigits places num den
  withPoint places keepPoint (Nat.toDigits 10 digits) ++ exponentText "e" 2 place

/-- A text with a point, without the zeros at its end. -/
def withoutZeros (text : String) : String :=
  if text.toList.contains '.' then
    let kept := text.toList.reverse.dropWhile (· = '0')
    String.ofList (if kept.head? = some '.' then kept.drop 1 else kept).reverse
  else text

/-- A quotient with so many digits in all, with an exponent if it is very great or very small. -/
def generalText (count : Nat) (keepZeros : Bool) (num den : Nat) : String :=
  let count := max 1 count
  let place := (firstDigits (count - 1) num den).2
  if -4 ≤ place ∧ place < count then
    let text := fixedText ((count : Int) - 1 - place).toNat keepZeros num den
    if keepZeros then text else withoutZeros text
  else
    let (digits, place) := firstDigits (count - 1) num den
    let front := withPoint (count - 1) keepZeros (Nat.toDigits 10 digits)
    (if keepZeros then front else withoutZeros front) ++ exponentText "e" 2 place

/-- Digits and a power of two in hexadecimal, with so many digits behind the point or as many as there are. -/
def hexadecimalText (p : Precision) (places : Option Nat) (keepPoint : Bool) (digits : Nat) (power : Int) : String :=
  let most := (p.bits - p.shownBits + 3) / 4
  let missing : Nat := if digits = 0 then 0 else min (p.bits - 1 - Nat.log2 digits) ((power - p.least).toNat)
  let full := digits * 2 ^ missing * 2 ^ (4 * most - (p.bits - p.shownBits))
  let exponent : Int := if digits = 0 then 0 else power - missing + (p.bits - p.shownBits : Nat)
  let text (count : Nat) (n : Nat) : String := withPoint count keepPoint (Nat.toDigits 16 n)
  let front := match places with
    | some count =>
      text count (if count < most then nearest full (16 ^ (most - count)) else full * 16 ^ (count - most))
    | none =>
      let short := withoutZeros (text most full)
      if keepPoint && !short.toList.contains '.' then short ++ "." else short
  "0x" ++ front ++ exponentText "p" 1 exponent

end Floating

end SeedCorpus.StandIn.Tool
