/-
  The values of a TOML document.

  A document is a table.  The order of the entries of a table carries no meaning; no key occurs twice in one.  Fractions
  and moments of time keep the text that they were written as: settings have no use for them, and all that matters is that
  they are neither integers nor texts.
-/
import SeedCorpus.Instances

namespace SeedCorpus.Toml

/-- A value. -/
inductive Value where
  /-- A text. -/
  | text (s : String)
  /-- A whole number. -/
  | integer (n : Int)
  /-- A number with a fraction or an exponent, an infinity or no number. -/
  | float (written : String)
  /-- A truth value. -/
  | boolean (b : Bool)
  /-- A date, a time of day or both. -/
  | moment (written : String)
  /-- Values in order. -/
  | array (items : List Value)
  /-- Values by key. -/
  | table (entries : List (String × Value))
deriving Repr, Inhabited

/-- The entries of a table. -/
abbrev Table := List (String × Value)

/-- The whole numbers that a document can hold. -/
def Representable (n : Int) : Prop := -(2 ^ 63) ≤ n ∧ n < 2 ^ 63

instance (n : Int) : Decidable (Representable n) := inferInstanceAs (Decidable (_ ∧ _))

end SeedCorpus.Toml
