import DirectConv.Element
import DirectConv.Regime

/-!
# Narrow operands, wide totals

Signed operands are extended before they are multiplied: every product is formed in the wide type,
beginning with the first one, so no total ever has the narrow width. Operands are loaded in a type
of their own, which can be wider than the input and narrower than the totals.

## Main definitions

- `DirectConv.Widening`: the three widths and the row blocks of one such regime
- `DirectConv.Widening.operand`, `DirectConv.Widening.widen`: the two extensions
- `DirectConv.Regime.widening`: the regime
-/

namespace DirectConv

/-- The widths of a regime with wide totals. -/
structure Widening where
  name : String
  /-- Bits of inputs and weights. -/
  narrowBits : Nat
  /-- Bits of loaded operands. -/
  operandBits : Nat
  /-- Bits of products, totals and outputs. -/
  wideBits : Nat
  /-- How many output rows are finished at a time. -/
  blockRows : FilterSize → Nat

namespace Widening

/-- Bytes are loaded into 16 bits and totalled in 32. -/
@[reducible] def byte : Widening := ⟨"i8->i32", 8, 16, 32, FilterSize.pick 4 8 6 6⟩

/-- Words of 16 bits are totalled in 32. -/
@[reducible] def half : Widening := ⟨"i16->i32", 16, 16, 32, FilterSize.pick 4 8 6 6⟩

/-- Words of 32 bits are totalled in 64. -/
@[reducible] def word : Widening := ⟨"i32->i64", 32, 32, 64, FilterSize.pick 4 4 8 6⟩

variable (W : Widening)

/-- The loaded form of a signed input or weight. -/
def operand (x : BitVec W.narrowBits) : BitVec W.operandBits := x.signExtend W.operandBits

/-- The wide form of a loaded operand. -/
def widen (x : BitVec W.operandBits) : BitVec W.wideBits := x.signExtend W.wideBits

end Widening

/-- The regime with the widths `W`. A group is one channel. -/
@[reducible] def Regime.widening (W : Widening) : Regime where
  Input := BitVec W.narrowBits
  Weight := BitVec W.narrowBits
  Output := BitVec W.wideBits
  Lane := BitVec W.operandBits
  Tap := BitVec W.operandBits
  Cell := BitVec W.wideBits
  name := W.name
  elementBits := W.wideBits
  footprint := ⟨W.wideBits / 8, 32, W.operandBits / 8, W.wideBits / 8⟩
  grouping := .standard
  blockRows := W.blockRows
  groups channels := channels
  validate _ := .ok ()
  preparation := if W.operandBits = W.narrowBits then .copied else .converted
  tapAt weights _ filter group position :=
    W.operand (weights.getD (group * filter.taps + position) 0#_)
  lastChannel group := group
  covers planes group row col count := planes.covers group row col count
  laneAt planes group row col := W.operand (planes.read 0#_ group row col)
  vacantLane := 0#_
  vacantCell := .pure 0#_
  vacantOutput := 0#_
  totals := .ok 1
  operable := true
  first lane tap := MacElement.mul (W.widen lane) (W.widen tap)
  later cell lane tap := MacElement.mac cell (W.widen lane) (W.widen tap)
  endGroup _ _ _ cell := cell
  settled _ := true
  result cell := cell

end DirectConv
