/-
  Values of a document as settings.

  Settings are records: fields with names, in a fixed order.  A record is written as a table, where a field is found by its
  name and other keys do not matter, or as an array, where a field is found by its position and surplus items do not
  matter.  A moment passes for a table that has none of the fields.  A field that is missing has its default; one that is
  there has to be of the right kind (`Record.read`).
-/
import SeedCorpus.Toml.Value

namespace SeedCorpus.Toml

/-! ## Plain values -/

namespace Value

/-- The text that a value is. -/
def text? : Value → Option String
  | .text s => some s
  | _ => none

/-- The whole number that a value is. -/
def integer? : Value → Option Int
  | .integer n => some n
  | _ => none

/-- The whole number, not below zero, that a value is. -/
def count? (v : Value) : Option Nat := do
  let n ← v.integer?
  if 0 ≤ n then some n.toNat else none

/-- The texts that a value lists. -/
def texts? : Value → Option (List String)
  | .array items => items.mapM text?
  | _ => none

/-- Whether a value is a table or an array without content. -/
def isHollow : Value → Bool
  | .table entries => entries.isEmpty
  | .array items => items.isEmpty
  | _ => false

/-- The word of a choice: a text, or the only key of a table, with nothing below it. -/
def word? : Value → Option String
  | .text s => some s
  | .table [(key, below)] => if below.isHollow then some key else none
  | _ => none

end Value

/-! ## Records -/

/-- A value in the place of a record. -/
inductive Record where
  /-- Fields by name. -/
  | named (entries : Table)
  /-- Fields in order. -/
  | ordered (items : List Value)
deriving Inhabited

/-- The record that a value is. -/
def Value.record? : Value → Option Record
  | .table entries => some (.named entries)
  | .array items => some (.ordered items)
  | .moment _ => some (.named [])
  | _ => none

/-- What is written for the field of a name and position. -/
def Record.get? (r : Record) (position : Nat) (name : String) : Option Value :=
  match r with
  | .named entries => entries.lookup name
  | .ordered items => items[position]?

/-- A field read with `decode`, or its default, if it has one, where nothing is written. -/
def Record.read {α : Type} (r : Record) (position : Nat) (name : String) (decode : Value → Option α)
    (default : Option α) : Option α :=
  match r.get? position name with
  | some v => decode v
  | none => default

end SeedCorpus.Toml
