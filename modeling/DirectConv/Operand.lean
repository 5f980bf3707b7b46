import DirectConv.Rejection

/-!
# Operands of few bits

The activations and weights of the compact regimes are bytes of which only the low bits count.
Between one and eight bits can be used. Other numbers of bits are refused before anything is
computed with them; an engine that is made without asking can still be given them.

## Main definitions

- `DirectConv.Operand.fits`: the usable numbers of bits
- `DirectConv.Operand.validate`: accept the numbers of bits of both operands
- `DirectConv.Operand.largest`: the largest operand
-/

namespace DirectConv.Operand

/-- Operands have at least one bit and at most eight. -/
def fits (bits : Nat) : Bool := 1 ≤ bits && bits ≤ 8

theorem fits_iff {bits : Nat} : fits bits = true ↔ 1 ≤ bits ∧ bits ≤ 8 := by simp [fits]

/-- Accept operands with these numbers of bits; the activation is looked at first. -/
def validate (activationBits weightBits : Nat) : Except Rejection Unit :=
  if !fits activationBits then .error (.operandBits .activation activationBits)
  else if !fits weightBits then .error (.operandBits .weight weightBits)
  else .ok ()

/-- The largest byte of which only the low `bits` bits are set. A shift that computes it in a word
of 32 bits overflows from 32 bits on; these numbers are refused, and here they go on like 8 to
31. -/
def largest (bits : Nat) : Nat := (BitVec.allOnes (min bits 8)).toNat

theorem largest_lt (bits : Nat) : largest bits < 256 := by
  have h : (BitVec.allOnes (min bits 8)).toNat < 2 ^ min bits 8 := BitVec.isLt _
  exact Nat.lt_of_lt_of_le h (Nat.pow_le_pow_right (by decide) (Nat.min_le_right bits 8))

end DirectConv.Operand
