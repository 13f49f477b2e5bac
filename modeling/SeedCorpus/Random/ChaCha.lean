/-
  The ChaCha stream with twelve rounds.

  A key of eight words gives an endless stream of 32-bit words.  The stream comes in blocks of sixteen: block `n` is the
  initial state (four constants, the key, the number `n` in two words, two zero words), mixed by twelve rounds and
  added to itself.  `word key n` is the `n`-th word of the stream; nothing but the key and `n` goes into it.
-/
import SeedCorpus.Instances

namespace SeedCorpus.ChaCha

/-- The sixteen words that a block is made from and becomes. -/
abbrev State := Vector UInt32 16

/-- The eight words that determine a stream. -/
abbrev Key := Vector UInt32 8

/-- A word turned to the left. -/
def rotateLeft (x n : UInt32) : UInt32 := (x <<< n) ||| (x >>> (32 - n))

/-- Mixes four words of the state. -/
def quarterRound (s : State) (a b c d : Fin 16) : State :=
  let add (s : State) (i j : Fin 16) : State := s.set i (s.get i + s.get j)
  let xorTurn (s : State) (i j : Fin 16) (n : UInt32) : State := s.set i (rotateLeft (s.get i ^^^ s.get j) n)
  let s := xorTurn (add s a b) d a 16
  let s := xorTurn (add s c d) b c 12
  let s := xorTurn (add s a b) d a 8
  xorTurn (add s c d) b c 7

/-- Two rounds: one over the columns of the state, one over its diagonals. -/
def doubleRound (s : State) : State :=
  let s := quarterRound s 0 4 8 12
  let s := quarterRound s 1 5 9 13
  let s := quarterRound s 2 6 10 14
  let s := quarterRound s 3 7 11 15
  let s := quarterRound s 0 5 10 15
  let s := quarterRound s 1 6 11 12
  let s := quarterRound s 2 7 8 13
  quarterRound s 3 4 9 14

/-- The state that block `n` starts from. -/
def start (key : Key) (n : Nat) : State :=
  #v[0x61707865, 0x3320646e, 0x79622d32, 0x6b206574,
     key[0], key[1], key[2], key[3], key[4], key[5], key[6], key[7],
     UInt32.ofNat n, UInt32.ofNat (n / 2 ^ 32), 0, 0]

/-- Block `n` of the stream. -/
def block (key : Key) (n : Nat) : State :=
  let initial := start key n
  let mixed := (List.range 6).foldl (fun s _ => doubleRound s) initial
  Vector.zipWith (· + ·) mixed initial

/-- Word `n` of the stream. -/
def word (key : Key) (n : Nat) : UInt32 := (block key (n / 16)).get ⟨n % 16, Nat.mod_lt _ (by decide)⟩

/-- One step of the linear congruence that spreads a seed. -/
def step (s : UInt64) : UInt64 := s * 6364136223846793005 + 11634580027462260723

/-- Spreads a 64-bit seed over a key: each word is a permuted step of a linear congruence. -/
def keyOfSeed (seed : UInt64) : Key :=
  Vector.ofFn fun i =>
    let s := (List.range (i.val + 1)).foldl (fun (s : UInt64) _ => step s) seed
    let bits : UInt64 := ((s >>> 18) ^^^ s) >>> 27
    let turn : UInt64 := s >>> 59
    rotateLeft bits.toUInt32 ((32 - turn.toUInt32) % 32)

end SeedCorpus.ChaCha
