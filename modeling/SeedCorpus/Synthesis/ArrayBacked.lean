/-
  Programs that share an array.

  Every function takes `(int arg, int* arr)`.  Reads and writes go to elements of `arr`, which `main` fills with as many
  random values as the square of the number of functions; calls hand the array on, so that every access of the program
  goes to that one array.
-/
import SeedCorpus.Synthesis.Strategy

namespace SeedCorpus

namespace ArrayBacked

/-- Draws the position of an element, for programs of a size. -/
def drawElement (roles : Roles) (size : Nat) : Drawing Unit (VarId × Expr) := do
  let arr ← orFail roles.array
  let n ← Drawing.below (size * size)
  return (arr, .int (wrapInt64 n))

/-- The initializer of an array. -/
def initializer (values : List Nat) : String := "\x7b" ++ ", ".intercalate (values.map toString) ++ "\x7d"

end ArrayBacked

open SeedCorpus.ArrayBacked in
/-- The way of making programs whose functions share an array. -/
def arrayBacked : Strategy Unit where
  roles := do
    declareIntRoles
    let array ← Declaring.type "array"
    let _ ← Declaring.newVariable array "arr"
    orFail (Roles.ofPools (← Declaring.registry))
  params _ roles := roles.arg :: roles.arr.toList
  helpers := pure []
  callArgs _ roles adjusted := adjusted :: roles.arr.toList.map .var
  loopGuard _ r roles := positive r roles.arg
  read r roles size := do
    let (arr, position) ← drawElement roles size
    let plus ← orFail (r.operation "sum")
    return .update roles.sum plus (.element arr position)
  write r roles call size := do
    let (arr, position) ← drawElement roles size
    let plus ← orFail (r.operation "sum")
    let guarded ← orFail (positive r roles.arg)
    return .whenever guarded [.assign (.element arr position) (some plus) call]
  prelude r roles size := do
    let arr ← orFail roles.array
    let values ← Drawing.manyUpTo (valueBound size) (size * size)
    let int ← orFail (r.type "int")
    return [.declare int (.array arr) (.literal (initializer values))]
  takeFiles notes := ([], notes)

end SeedCorpus
