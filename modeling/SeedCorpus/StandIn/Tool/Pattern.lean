/-
  Patterns that lines are searched for, for the stand-ins of `grep`, `sed` and `expr`.

  The meaning of a pattern is `ends`: the places at which a match that starts at a given place can end, in order of
  preference.  `search` finds the first place where a match starts and takes the longest one there.
-/
import SeedCorpus.StandIn.Tool.Exchange

namespace SeedCorpus.StandIn.Tool

/-- A place between a part of a word and something else. -/
inductive Edge where
  /-- The beginning or the end of a word. -/
  | either
  /-- Neither the beginning nor the end of a word. -/
  | neither
  /-- The beginning of a word. -/
  | opening
  /-- The end of a word. -/
  | closing
  /-- A place with no part of a word in front of it. -/
  | bareBehind
  /-- A place with no part of a word after it. -/
  | bareAhead
deriving DecidableEq, Repr, Inhabited

/-- A pattern. -/
inductive Pattern where
  /-- Nothing. -/
  | empty
  /-- A byte of a set. -/
  | oneOf (set : Bytes)
  /-- The beginning of the line. -/
  | lineStart
  /-- The end of the line. -/
  | lineEnd
  /-- An edge of a word. -/
  | edge (kind : Edge)
  /-- One after the other. -/
  | seq (first second : Pattern)
  /-- Either of two. -/
  | alt (first second : Pattern)
  /-- Several times, at least and at most as often as given. -/
  | repeated (body : Pattern) (least : Nat) (most : Option Nat)
  /-- A part that is remembered under a number. -/
  | group (number : Nat) (body : Pattern)
  /-- What a remembered part matched. -/
  | again (number : Nat)
deriving Repr, Inhabited

/-- The letters, digits and the underscore. -/
def wordBytes : Bytes := byteRange 48 57 ++ byteRange 65 90 ++ [95] ++ byteRange 97 122

/-- Parts, the last one first, as one pattern. -/
def joinParts (parts : List Pattern) : Pattern := parts.foldl (fun later p => .seq p later) .empty

/-- The pattern of a text in which every character stands for itself. -/
def Pattern.ofLiteral (text : String) : Pattern :=
  joinParts ((Utf8.encode text).map fun b => .oneOf [b]).reverse

/-- The pattern that does not tell capital letters from small ones. -/
def Pattern.ignoringCase : Pattern → Pattern
  | .oneOf set =>
    let other (b : UInt8) : UInt8 := if 65 ≤ b && b ≤ 90 then b + 32 else if 97 ≤ b && b ≤ 122 then b - 32 else b
    .oneOf (set ++ set.map other)
  | .seq p q => .seq p.ignoringCase q.ignoringCase
  | .alt p q => .alt p.ignoringCase q.ignoringCase
  | .repeated p least most => .repeated p.ignoringCase least most
  | .group n p => .group n p.ignoringCase
  | p => p

/-! ## Matching -/

/-- A place in a line. -/
structure Place where
  /-- The byte in front of it, if it is not the beginning of the line. -/
  behind : Option UInt8
  /-- The rest of the line. -/
  rest : Bytes
  /-- What the groups matched, the last one first. -/
  groups : List (Nat × Bytes) := []
deriving DecidableEq, Repr, Inhabited

/-- Whether there is a byte and it is part of a word. -/
def isWordByte (b : Option UInt8) : Bool := b.any wordBytes.contains

/-- Whether a place is an edge of a kind. -/
def Place.hasEdge (p : Place) (kind : Edge) : Bool :=
  let before := isWordByte p.behind
  let after := isWordByte p.rest.head?
  match kind with
  | .either => before != after
  | .neither => before == after
  | .opening => !before && after
  | .closing => before && !after
  | .bareBehind => !before
  | .bareAhead => !after

/-- The place after some bytes. -/
def Place.after (p : Place) (count : Nat) : Place :=
  if count = 0 then p else { p with behind := p.rest[count - 1]?, rest := p.rest.drop count }

/-- The places after steps, of which there are at least `least` and at most `most`. Only the steps that have to be taken may
stay in place. The first argument limits the number of steps. -/
def iterate (step : Place → List Place) : Nat → Nat → Option Nat → Place → List Place
  | 0, least, _, p => if least = 0 then [p] else []
  | bound + 1, least, most, p =>
    let further := if most = some 0 then [] else (step p).flatMap fun q =>
      if 0 < least || q.rest.length < p.rest.length then iterate step bound (least - 1) (most.map (· - 1)) q else []
    if least = 0 then further ++ [p] else further

/-- The places at which a match can end. -/
def Pattern.ends : Pattern → Place → List Place
  | .empty, p => [p]
  | .oneOf set, p =>
    match p.rest with
    | b :: _ => if set.contains b then [p.after 1] else []
    | [] => []
  | .lineStart, p => if p.behind.isNone then [p] else []
  | .lineEnd, p => if p.rest.isEmpty then [p] else []
  | .edge kind, p => if p.hasEdge kind then [p] else []
  | .seq first second, p => (first.ends p).flatMap second.ends
  | .alt first second, p => first.ends p ++ second.ends p
  | .repeated body least most, p => iterate body.ends (p.rest.length + least) least most p
  | .group n body, p => (body.ends p).map fun q =>
    { q with groups := (n, p.rest.take (p.rest.length - q.rest.length)) :: q.groups }
  | .again n, p =>
    let earlier := (p.groups.lookup n).getD []
    if earlier.isPrefixOf p.rest then [p.after earlier.length] else []

/-- The longest of several ways to end, the first among equals. -/
def longest : List Place → Option Place
  | [] => none
  | p :: others =>
    match longest others with
    | some q => if q.rest.length < p.rest.length then some q else some p
    | none => some p

/-- A match in a line. -/
structure Found where
  /-- What stands in front of it. -/
  before : Bytes
  /-- What matches. -/
  matched : Bytes
  /-- What the groups matched. -/
  groups : List (Nat × Bytes)
  /-- What follows. -/
  after : Bytes
deriving DecidableEq, Repr, Inhabited

/-- The first match in a line, or in what is left of it behind a byte. -/
def Pattern.search (p : Pattern) (behind : Option UInt8) (line : Bytes) : Option Found :=
  match longest (p.ends { behind, rest := line }) with
  | some q => some
    { before := [], matched := line.take (line.length - q.rest.length), groups := q.groups, after := q.rest }
  | none =>
    match line with
    | [] => none
    | b :: rest => (p.search (some b) rest).map fun found => { found with before := b :: found.before }

/-- Whether a line has a match. -/
def Pattern.occursIn (p : Pattern) (line : Bytes) : Bool := (p.search none line).isSome

end SeedCorpus.StandIn.Tool
