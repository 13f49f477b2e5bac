/-
  Bytes as text, whatever they are.

  What is UTF-8 is read as such.  Bytes that are not become the replacement character, one for every longest piece that
  could have been the beginning of a character (`decode`).  Bytes are read one at a time: a character that is under way knows
  how many bytes it still owes and between which bounds the next one has to be.
-/
namespace SeedCorpus

/-- A stream of bytes. -/
abbrev Bytes := List UInt8

namespace Utf8

/-- A character of which some bytes are still owed. -/
structure Unfinished where
  /-- The number of bytes owed, less one. -/
  owed : Nat
  /-- The least value of the next byte. -/
  low : Nat := 0x80
  /-- The greatest value of the next byte. -/
  high : Nat := 0xBF
  /-- The bits so far. -/
  bits : Nat
deriving DecidableEq, Repr

/-- What a byte leads to. -/
inductive Step where
  /-- A whole character. -/
  | whole (c : Char)
  /-- A character that owes bytes. -/
  | more (p : Unfinished)
  /-- Nothing: the byte cannot stand here. -/
  | stray
deriving DecidableEq, Repr

/-- What the first byte of a character leads to. -/
def first (b : Nat) : Step :=
  if b ≤ 0x7F then .whole (Char.ofNat b)
  else if 0xC2 ≤ b ∧ b ≤ 0xDF then .more { owed := 0, bits := b - 0xC0 }
  else if b = 0xE0 then .more { owed := 1, low := 0xA0, bits := 0 }
  else if b = 0xED then .more { owed := 1, high := 0x9F, bits := 0xD }
  else if 0xE1 ≤ b ∧ b ≤ 0xEF then .more { owed := 1, bits := b - 0xE0 }
  else if b = 0xF0 then .more { owed := 2, low := 0x90, bits := 0 }
  else if 0xF1 ≤ b ∧ b ≤ 0xF3 then .more { owed := 2, bits := b - 0xF0 }
  else if b = 0xF4 then .more { owed := 2, high := 0x8F, bits := 4 }
  else .stray

/-- What one more byte of a character leads to. -/
def Unfinished.next (p : Unfinished) (b : Nat) : Step :=
  if p.low ≤ b ∧ b ≤ p.high then
    let bits := p.bits * 64 + (b - 0x80)
    match p.owed with
    | 0 => .whole (Char.ofNat bits)
    | owed + 1 => .more { owed, bits }
  else .stray

/-- The character that stands for bytes that are not UTF-8. -/
def replacement : Char := Char.ofNat 0xFFFD

/-- What is known after some bytes. -/
structure Progress where
  /-- The characters so far, the last one first. -/
  done : List Char := []
  /-- The character that owes bytes. -/
  underWay : Option Unfinished := none
deriving DecidableEq, Repr, Inhabited

/-- What is known after a step. -/
def Progress.take (p : Progress) : Step → Progress
  | .whole c => { done := c :: p.done }
  | .more u => { done := p.done, underWay := some u }
  | .stray => { done := replacement :: p.done }

/-- What is known after one more byte. A byte that a character does not take is tried as the first of another. -/
def Progress.next (p : Progress) (b : UInt8) : Progress :=
  match p.underWay with
  | none => p.take (first b.toNat)
  | some u =>
    match u.next b.toNat with
    | .stray => { p with done := replacement :: p.done }.take (first b.toNat)
    | step => p.take step

/-- The characters when no more bytes come. -/
def Progress.finish (p : Progress) : List Char :=
  match p.underWay with
  | none => p.done.reverse
  | some _ => (replacement :: p.done).reverse

/-- The text of bytes. -/
def decode (bytes : Bytes) : String := String.ofList (bytes.foldl Progress.next {}).finish

/-- The bytes of a text. -/
def encode (text : String) : Bytes := text.toUTF8.toList

end Utf8

end SeedCorpus
