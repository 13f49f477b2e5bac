/-
  Numbers in a TOML document.

  Between the digits of a number single underscores may stand.  Whole numbers have 64 bits with a sign; in base 16, 8 and 2
  they carry no sign of their own.  A decimal number with more than one digit does not start with a zero.  A fraction that
  is too great for a double is refused if it is positive: `tooGreat` decides this exactly, by comparing with half a step
  above the greatest double.
-/
import SeedCorpus.Toml.Value

namespace SeedCorpus.Toml.Number

/-! ## Digits -/

/-- The value of a digit in the bases up to 16. -/
def digitValue (c : Char) : Option Nat :=
  if '0' ≤ c ∧ c ≤ '9' then some (c.toNat - '0'.toNat)
  else if 'a' ≤ c ∧ c ≤ 'f' then some (c.toNat - 'a'.toNat + 10)
  else if 'A' ≤ c ∧ c ≤ 'F' then some (c.toNat - 'A'.toNat + 10)
  else none

/-- The value of a character that must be a digit of a base. -/
def digitIn (base : Nat) (c : Char) : Option Nat := do
  let d ← digitValue c
  if d < base then some d else none

/-- Whether a character is a decimal digit. -/
def isDigit (c : Char) : Bool := '0' ≤ c && c ≤ '9'

/-- The digits of a text in which each underscore stands between two digits. -/
def digits (base : Nat) : List Char → Option (List Nat)
  | [] => none
  | [c] => do return [← digitIn base c]
  | c :: '_' :: rest => do return (← digitIn base c) :: (← digits base rest)
  | c :: rest => do return (← digitIn base c) :: (← digits base rest)

/-- The number that digits stand for. -/
def valueOf (base : Nat) (ds : List Nat) : Nat := ds.foldl (fun n d => base * n + d) 0

/-- A sign, if there is one, and the rest. -/
def splitSign : List Char → Bool × List Char
  | '+' :: rest => (false, rest)
  | '-' :: rest => (true, rest)
  | s => (false, s)

/-- The digits of a decimal whole number, which has no zero in front. -/
def plainDigits (s : List Char) : Option (List Nat) := do
  let ds ← digits 10 s
  if s.length > 1 && s.head? = some '0' then none else some ds

/-! ## Whole numbers -/

/-- A whole number in one of the four bases. -/
def integer (s : List Char) : Option Int := do
  let n : Int ← match s with
    | '0' :: 'x' :: rest => (digits 16 rest).map (valueOf 16 ·)
    | '0' :: 'o' :: rest => (digits 8 rest).map (valueOf 8 ·)
    | '0' :: 'b' :: rest => (digits 2 rest).map (valueOf 2 ·)
    | _ =>
      let (negative, rest) := splitSign s
      (plainDigits rest).map fun ds => if negative then -(valueOf 10 ds : Int) else valueOf 10 ds
  if Representable n then some n else none

/-! ## Fractions -/

/-- The least number that no double is near: half a step above the greatest one. -/
def doubleLimit : Nat := 2 ^ 1024 - 2 ^ 970

/-- Whether `ds` as a whole number, times ten to the power of `exponent`, is too great for a double. -/
def tooGreat (ds : List Nat) (exponent : Int) : Bool :=
  let significant := ds.dropWhile (· = 0)
  let magnitude := significant.length + exponent
  if significant.isEmpty || magnitude < 300 then false
  else if magnitude > 320 then true
  else if exponent ≥ 0 then doubleLimit ≤ valueOf 10 significant * 10 ^ exponent.toNat
  else doubleLimit * 10 ^ (-exponent).toNat ≤ valueOf 10 significant

/-- An exponent: a letter, a sign if need be, and digits. -/
def exponent (s : List Char) : Option Int := do
  match s with
  | [] => some 0
  | c :: rest =>
    if c = 'e' ∨ c = 'E' then
      let (negative, rest) := splitSign rest
      let n : Int := valueOf 10 (← digits 10 rest)
      some (if negative then -n else n)
    else none

/-- Whether a text is a number with a fraction or an exponent, an infinity or no number. -/
def isFloat (s : List Char) : Bool :=
  let (negative, rest) := splitSign s
  if rest = "inf".toList || rest = "nan".toList then true
  else
    let isExponentMark (c : Char) : Bool := c = 'e' || c = 'E'
    let mantissa := rest.takeWhile (!isExponentMark ·)
    let tail := rest.dropWhile (!isExponentMark ·)
    let whole := mantissa.takeWhile (· ≠ '.')
    let found : Option Bool := do
      let front ← plainDigits whole
      let back ← match mantissa.dropWhile (· ≠ '.') with
        | [] => if tail.isEmpty then none else some []
        | _ :: fraction => digits 10 fraction
      let e ← exponent tail
      return negative || !tooGreat (front ++ back) (e - back.length)
    found.getD false

end SeedCorpus.Toml.Number
