/-
  White space.

  The characters are those with the property White_Space.  `trim` drops them at both ends of a text.
-/
namespace SeedCorpus.Blank

/-- Whether a character is white space. -/
def isBlank (c : Char) : Bool :=
  let n := c.toNat
  (0x09 ≤ n && n ≤ 0x0D) || n = 0x20 || n = 0x85 || n = 0xA0 || n = 0x1680 || (0x2000 ≤ n && n ≤ 0x200A)
    || n = 0x2028 || n = 0x2029 || n = 0x202F || n = 0x205F || n = 0x3000

/-- Characters without white space at both ends. -/
def trimChars (s : List Char) : List Char := ((s.dropWhile isBlank).reverse.dropWhile isBlank).reverse

/-- A text without white space at both ends. -/
def trim (text : String) : String := String.ofList (trimChars text.toList)

end SeedCorpus.Blank
