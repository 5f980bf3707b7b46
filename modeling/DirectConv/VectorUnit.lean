import DirectConv.Rejection
import DirectConv.Size

/-!
# The vector unit

A vector unit has registers of a fixed number of bits. Several registers can be grouped into one
longer register. How many lanes a group has depends on the width of its elements; a cap can lower
that number further.

## Main definitions

- `DirectConv.Grouping`: how many registers a group has
- `DirectConv.VectorUnit`: register length and lane cap
- `DirectConv.VectorUnit.maxLanes`: how many elements a group of registers holds
- `DirectConv.VectorUnit.validate`: which units are usable
-/

namespace DirectConv

/-- How many registers form one group. -/
inductive Grouping where
  | one
  | two
  | four
  | eight
  deriving DecidableEq

namespace Grouping

/-- The number of registers of the group. -/
def factor : Grouping → Nat
  | one => 1
  | two => 2
  | four => 4
  | eight => 8

/-- Registers are used in pairs unless a regime says otherwise. -/
def standard : Grouping := two

end Grouping

/-- A vector unit: the length of its registers, and how many lanes may be used at most. -/
structure VectorUnit where
  registerBits : Nat
  /-- The largest number of lanes to use, if it is limited. -/
  laneCap : Option Nat
  deriving DecidableEq

namespace VectorUnit

/-- Bits of a register if nothing else is known. -/
def standardBits : Nat := 4096

/-- Bits of the longest register that is accepted. -/
def longestBits : Nat := 65536

/-- The unit that is assumed if nothing else is known. -/
def standard : VectorUnit := ⟨standardBits, none⟩

/-- Lanes of a register group that holds elements of `elementBits` bits, before the cap. The
length of the group saturates at the largest machine size. -/
def physicalLanes (unit : VectorUnit) (elementBits : Nat) (grouping : Grouping) : Nat :=
  Size.saturate (unit.registerBits * grouping.factor) / elementBits

/-- Lanes of a register group that may be used for elements of `elementBits` bits. -/
def lanesFor (unit : VectorUnit) (elementBits : Nat) (grouping : Grouping) : Nat :=
  match unit.laneCap with
  | none => unit.physicalLanes elementBits grouping
  | some cap => min cap (unit.physicalLanes elementBits grouping)

/-- Lanes of a register group that may be used; elements have at least one bit. -/
def maxLanes (unit : VectorUnit) (elementBits : Nat) (grouping : Grouping) : Except Fault Nat :=
  if elementBits = 0 then .error .divisionByZero else .ok (unit.lanesFor elementBits grouping)

/-- A usable unit has registers of at least 64 bits, a power of two and not beyond
`longestBits`, and at least one usable lane. -/
def validate (unit : VectorUnit) : Except Rejection Unit :=
  if unit.registerBits < 64 ∨ ¬ unit.registerBits.isPowerOfTwo then
    .error (.oddRegister unit.registerBits)
  else if longestBits < unit.registerBits then
    .error (.longRegister unit.registerBits longestBits)
  else if unit.laneCap = some 0 then .error .zeroLaneCap
  else .ok ()

theorem standard_validate : standard.validate = .ok () := by
  have h : Nat.isPowerOfTwo standard.registerBits := ⟨12, rfl⟩
  simp only [validate, h, not_true_eq_false, or_false]
  rfl

end VectorUnit

end DirectConv
