/-
  Random numbers from a seed.

  A `Source` is a place in a stream of words.  A draw takes the next word, or the next two for a wide draw, low word
  first; nothing is skipped.  A number below `n` comes from one draw `a`: the high half of `a * n`.  When the low half
  lies so close to its end that further digits could carry into the high half, one more draw decides the carry.

  The result is always below `n` (`fst_scale_lt`): a high half of `n - 1` leaves a low half of at most `2 ^ w - n`, and
  then no second draw happens.
-/
import SeedCorpus.Random.ChaCha

namespace SeedCorpus.Random

/-- A place in a stream of random words. -/
structure Source where
  /-- The key of the stream. -/
  key : ChaCha.Key
  /-- How many words were drawn. -/
  drawn : Nat := 0

/-- The start of the stream of a seed. -/
def Source.ofSeed (seed : Nat) : Source := { key := ChaCha.keyOfSeed (UInt64.ofNat seed) }

/-- The width of a draw. -/
inductive Width where
  /-- One word of 32 bits. -/
  | narrow
  /-- Two words, 64 bits. -/
  | wide
deriving DecidableEq, Repr

/-- How many values a draw can have. -/
def Width.size : Width → Nat
  | .narrow => 2 ^ 32
  | .wide => 2 ^ 64

namespace Source

/-- Draws a number of the given width. -/
def draw (g : Source) : Width → Nat × Source
  | .narrow => ((ChaCha.word g.key g.drawn).toNat, { g with drawn := g.drawn + 1 })
  | .wide =>
    ((ChaCha.word g.key g.drawn).toNat + 2 ^ 32 * (ChaCha.word g.key (g.drawn + 1)).toNat,
      { g with drawn := g.drawn + 2 })

/-- Draws a number below `n`, for an `n` that is not zero and at most the size of the width. -/
def scale (g : Source) (w : Width) (n : Nat) : Nat × Source :=
  let (a, g) := g.draw w
  let high := a * n / w.size
  let low := a * n % w.size
  if w.size - n < low then
    let (b, g) := g.draw w
    (if w.size ≤ low + b * n / w.size then high + 1 else high, g)
  else (high, g)

/-- Draws a position below `n`, narrow as long as `n` fits. -/
def below (g : Source) (n : Nat) : Nat × Source :=
  if n < 2 ^ 32 then g.scale .narrow n else g.scale .wide n

/-- Draws a number from 0 up to `n`, both included. -/
def upTo (g : Source) (n : Nat) : Nat × Source := g.scale .wide (n + 1)

/-! ## Bounds -/

/-- A draw is below the size of its width. -/
theorem draw_lt (g : Source) (w : Width) : (g.draw w).1 < w.size := by
  cases w with
  | narrow => exact UInt32.toNat_lt _
  | wide =>
    have low := UInt32.toNat_lt (ChaCha.word g.key g.drawn)
    have high := UInt32.toNat_lt (ChaCha.word g.key (g.drawn + 1))
    simp only [draw, Width.size]
    omega

/-- A scaled draw is below its bound, with or without a carry. -/
theorem fst_scale_lt (g : Source) (w : Width) (n : Nat) (pos : 0 < n) (fits : n ≤ w.size) :
    (g.scale w n).1 < n := by
  have bound := g.draw_lt w
  have size : 0 < w.size := by omega
  have whole := Nat.div_add_mod ((g.draw w).1 * n) w.size
  have most : (g.draw w).1 * n ≤ (w.size - 1) * n := Nat.mul_le_mul_right n (by omega)
  have high : (g.draw w).1 * n / w.size < n :=
    Nat.div_lt_of_lt_mul (Nat.mul_lt_mul_of_pos_right bound pos)
  rw [Nat.sub_mul, Nat.one_mul] at most
  have room : n ≤ w.size * n := Nat.le_mul_of_pos_left n size
  simp only [scale]
  split
  · rename_i close
    have carry : (g.draw w).1 * n / w.size + 1 < n := by
      apply Nat.lt_of_not_le
      intro full
      have := Nat.mul_le_mul_left w.size full
      rw [Nat.mul_add, Nat.mul_one] at this
      omega
    dsimp only
    split
    · exact carry
    · exact high
  · exact high

end Source

end SeedCorpus.Random
