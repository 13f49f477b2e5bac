/-
  Preferred instances.

  Powers, the zero that a sum starts from and the equality of byte strings are those of the core library.  A module that
  sees more of Mathlib sees a second instance of each.  With the first ones preferred a definition means the same wherever
  it is read.
-/
attribute [instance (1100)] instPowNat Zero.ofOfNat0 ByteArray.instDecidableEq

-- A literal exponent is settled by a default instance.
attribute [default_instance 10100] instPowNat
