/-
  The stand-in shell: patterns.

  A pattern is a list of characters, each with whether it stands for itself.  A text fits it or not (`fits`); where a pattern
  is a path, the paths of all entries that fit it take its place (`matchingPaths`).
-/
import SeedCorpus.Folder.Tree

namespace SeedCorpus.StandIn.Shell

/-- Characters, each with whether it stands for itself. -/
abbrev Marked := List (Char × Bool)

/-- The characters without their marks. -/
def Marked.text (m : Marked) : String := String.ofList (List.map (·.1) m)

/-! ## Texts -/

/-- A part of a pattern. -/
inductive Glob where
  /-- Any characters. -/
  | any
  /-- Any character. -/
  | one
  /-- A character between the ends of one of several ranges, or outside all of them if `outside`. -/
  | within (outside : Bool) (ranges : List (Char × Char))
deriving DecidableEq, Repr

/-- The ranges of characters in brackets, and what follows the closing bracket. A bracket in front of all else stands for
itself. -/
def readRanges (first : Bool) : Marked → Option (List (Char × Char) × Marked)
  | [] => none
  | (']', false) :: rest => if first then do
      let (ranges, rest) ← readRanges false rest
      return ((']', ']') :: ranges, rest)
    else some ([], rest)
  | (a, _) :: ('-', false) :: (b, literal) :: rest =>
    if b = ']' && !literal then do
      let (ranges, rest) ← readRanges false ((b, literal) :: rest)
      return ((a, a) :: ('-', '-') :: ranges, rest)
    else do
      let (ranges, rest) ← readRanges false rest
      return ((a, b) :: ranges, rest)
  | (a, _) :: rest => do
    let (ranges, rest) ← readRanges false rest
    return ((a, a) :: ranges, rest)

/-- The parts of a pattern. A bracket that is not closed stands for itself. The first argument is above the length. -/
def globOf : Nat → Marked → List Glob
  | 0, _ => []
  | _ + 1, [] => []
  | steps + 1, ('*', false) :: rest => .any :: globOf steps rest
  | steps + 1, ('?', false) :: rest => .one :: globOf steps rest
  | steps + 1, ('[', false) :: rest =>
    let (outside, inner) : Bool × Marked := match rest with
      | ('!', false) :: inner => (true, inner)
      | inner => (false, inner)
    match readRanges true inner with
    | some (ranges, rest) => .within outside ranges :: globOf steps rest
    | none => .within false [('[', '[')] :: globOf steps rest
  | steps + 1, (c, _) :: rest => .within false [(c, c)] :: globOf steps rest

/-- Whether a text fits the parts of a pattern. -/
def fitsGlob (pattern : List Glob) (s : List Char) : Bool :=
  match pattern, s with
  | [], s => s.isEmpty
  | .any :: more, [] => fitsGlob more []
  | .any :: more, c :: rest => fitsGlob more (c :: rest) || fitsGlob (.any :: more) rest
  | _ :: _, [] => false
  | .one :: more, _ :: rest => fitsGlob more rest
  | .within outside ranges :: more, c :: rest =>
    (ranges.any fun (a, b) => a ≤ c && c ≤ b) != outside && fitsGlob more rest
termination_by pattern.length + s.length

/-- Whether a text fits a pattern: a star stands for any characters, a question mark for one, and brackets for one of those
that they list. -/
def fits (pattern : Marked) (s : List Char) : Bool := fitsGlob (globOf (pattern.length + 1) pattern) s

/-- The rest of a text without a front that fits a pattern, the shortest such front or the longest. -/
def trimFront (longest : Bool) (pattern : Marked) (s : List Char) : List Char :=
  let ends := (List.range (s.length + 1)).filter fun n => fits pattern (s.take n)
  match if longest then ends.getLast? else ends.head? with
  | some n => s.drop n
  | none => s

/-- A text without an end that fits a pattern, the shortest such end or the longest. -/
def trimEnd (longest : Bool) (pattern : Marked) (s : List Char) : List Char :=
  let starts := (List.range (s.length + 1)).filter fun n => fits pattern (s.drop n)
  match if longest then starts.head? else starts.getLast? with
  | some n => s.take n
  | none => s

/-! ## Paths -/

/-- Whether a pattern is more than a text. -/
def isPattern (m : Marked) : Bool := m.any fun (c, literal) => !literal && (c = '*' || c = '?' || c = '[')

/-- What stands between the slashes of a pattern. -/
def segments (m : Marked) : List Marked :=
  m.foldr (fun (c, literal) below =>
    match below with
    | first :: more => if c = '/' then [] :: first :: more else ((c, literal) :: first) :: more
    | [] => [[(c, literal)]]) [[]]

/-- The names in a folder that fit a pattern. Those with a dot in front need a dot in front of the pattern. -/
def matchingNames (d : Folder) (segment : Marked) : List String :=
  if segment.head?.map (·.1) = some '.' then
    ("." :: ".." :: d.names).filter fun name => name.startsWith "." && fits segment name.toList
  else d.names.filter fun name => !name.startsWith "." && fits segment name.toList

/-- The paths of the entries that fit the rest of a pattern, behind a path that is known. -/
def matchingBelow (t : FileTree) (known : String) : List Marked → List String
  | [] => []
  | [last] =>
    if isPattern last then
      match t.findFolder (if known.isEmpty then "." else known) with
      | .ok d => (matchingNames d last).map (known ++ ·)
      | .error _ => []
    else
      let path := known ++ last.text
      if t.hasEntry path then [path] else []
  | segment :: rest =>
    if isPattern segment then
      match t.findFolder (if known.isEmpty then "." else known) with
      | .ok d => (matchingNames d segment).flatMap fun name => matchingBelow t (known ++ name ++ "/") rest
      | .error _ => []
    else matchingBelow t (known ++ segment.text ++ "/") rest

/-- The paths of the entries that fit a pattern, in the order of their bytes, or the pattern itself if there are none. -/
def matchingPaths (t : FileTree) (m : Marked) : List String :=
  if !isPattern m then [m.text]
  else
    match (matchingBelow t "" (segments m)).mergeSort (fun a b => decide (a ≤ b)) with
    | [] => [m.text]
    | paths => paths

end SeedCorpus.StandIn.Shell
