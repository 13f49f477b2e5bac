/-
  Dates and times in a TOML document.

  A moment is a date (`1979-05-27`), a time of day (`07:32:00`, with a fraction if need be), or a date and a time with `T`,
  `t` or a blank between them, in which case an offset may follow.  Days are checked against their month.
-/
import SeedCorpus.Text.Reader
import SeedCorpus.Toml.Number

namespace SeedCorpus.Toml.Moment

/-- The number that exactly `count` decimal digits in front of a text stand for, and the rest. -/
def fixedDigits (count : Nat) (s : List Char) : Option (Nat × List Char) :=
  let front := s.take count
  if front.length = count ∧ front.all Number.isDigit then
    some (Number.valueOf 10 (front.filterMap Number.digitValue), s.drop count)
  else none

/-- The number of days of a month. -/
def daysOf (year month : Nat) : Nat :=
  if month = 2 then
    if year % 4 = 0 ∧ (year % 100 ≠ 0 ∨ year % 400 = 0) then 29 else 28
  else if month = 4 ∨ month = 6 ∨ month = 9 ∨ month = 11 then 30
  else 31

/-- What follows a date. -/
def date (s : List Char) : Option (List Char) := do
  let (year, s) ← fixedDigits 4 s
  let s ← afterChar '-' s
  let (month, s) ← fixedDigits 2 s
  let s ← afterChar '-' s
  let (day, s) ← fixedDigits 2 s
  if 1 ≤ month ∧ month ≤ 12 ∧ 1 ≤ day ∧ day ≤ daysOf year month then some s else none

/-- What follows a time of day. -/
def time (s : List Char) : Option (List Char) := do
  let (hour, s) ← fixedDigits 2 s
  let s ← afterChar ':' s
  let (minute, s) ← fixedDigits 2 s
  let s ← afterChar ':' s
  let (second, s) ← fixedDigits 2 s
  if hour ≤ 23 ∧ minute ≤ 59 ∧ second ≤ 60 then
    match s with
    | '.' :: fraction =>
      if (fraction.head?.map Number.isDigit).getD false then some (fraction.dropWhile Number.isDigit) else none
    | _ => some s
  else none

/-- What follows an offset, if there is one. -/
def offset (s : List Char) : Option (List Char) := do
  match s with
  | 'Z' :: rest | 'z' :: rest => some rest
  | '+' :: rest | '-' :: rest =>
    let (hour, rest) ← fixedDigits 2 rest
    let rest ← afterChar ':' rest
    let (minute, rest) ← fixedDigits 2 rest
    if hour ≤ 23 ∧ minute ≤ 59 then some rest else none
  | _ => some s

/-- Whether a character parts a date from a time. -/
def isDivider (c : Char) : Bool := c = 'T' || c = 't' || c = ' '

/-- Whether a text is a moment. -/
def isMoment (s : List Char) : Bool :=
  match date s with
  | some [] => true
  | some (c :: rest) => isDivider c && ((time rest).bind offset) = some []
  | none => time s = some []

end SeedCorpus.Toml.Moment
