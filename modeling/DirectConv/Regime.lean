import DirectConv.Buffer
import DirectConv.FilterSize
import DirectConv.Planes
import DirectConv.Register
import DirectConv.VectorUnit

/-!
# Regimes

A regime says how one kind of number is convolved. Channels are consumed in groups: one lane of a
register holds the elements of one column for all channels of a group, one tap holds the weights
that meet them, and one cell holds the total of one output column. The regime is described lane by
lane; what happens to a register is the same in each of its active lanes.

## Main definitions

- `DirectConv.Footprint`: how much memory the parts of a computation take
- `DirectConv.Preparation`: how taps come out of weights
- `DirectConv.Regime`: the types and the operations on single lanes
- `DirectConv.Regime.prepare`: the taps of one filter
- `DirectConv.Regime.readable`: whether a stretch of an input row can be loaded
- `DirectConv.Regime.loadRow`: load a stretch of an input row into a register
- `DirectConv.Regime.reserveLanes`: make room for registers and accumulators
- `DirectConv.Accumulator`: the totals of one output row
- `DirectConv.Accumulator.first`, `DirectConv.Accumulator.later`,
  `DirectConv.Accumulator.endGroup`, `DirectConv.Accumulator.store`: the life of a total

## Design notes

The first contribution replaces a cell, whatever it held: `Regime.first` does not see the cell.
Loads are split into a test, `Regime.readable`, and the lane they give, `Regime.laneAt`, which
depends on the column alone and not on the width of the load. The test has two parts that fail in
different ways: a load counts channels before it reads any of them, and the number it counts up to
must be a size.

The operations are given for every number of bits an operand can be said to have, also for numbers
`validate` refuses. Beyond those numbers a cell can have no total, or a product can ask for parts of
an operand that do not exist. `Regime.totals` and `Regime.operable` say so, and for all operands
that `validate` accepts they say nothing of the kind.
-/

namespace DirectConv

/-- How many bytes the parts of a computation take. -/
structure Footprint where
  /-- A lane, in the registers and accumulators with the widest lanes. -/
  lane : Nat
  /-- What an engine keeps of an accumulator apart from its lanes. -/
  slot : Nat
  tap : Nat
  output : Nat

/-- How the taps of a filter come out of its weights. -/
inductive Preparation where
  /-- The weights themselves are the taps, and a copy of them has as much room as they have. -/
  | copied
  /-- Every weight is turned into a tap of its own, which takes more room than the weight. -/
  | converted
  /-- Weights are gathered into taps, for which room is made before any weight is read. -/
  | gathered
  /-- The taps are made first, and then the weights that are there are entered. Those that are
  missing at the end count as zero. -/
  | filled
  deriving DecidableEq

/-- How one kind of number is convolved. -/
structure Regime where
  Input : Type
  Weight : Type
  Output : Type
  /-- What one lane holds: one column of a channel group. -/
  Lane : Type
  /-- The weights of a channel group at one position of the filter. -/
  Tap : Type
  /-- The totals of one output column. -/
  Cell : Type
  name : String
  /-- The width of the elements that determine how many lanes a register has. -/
  elementBits : Nat
  /-- How many bytes the parts take. -/
  footprint : Footprint
  /-- How many registers are used as one. -/
  grouping : Grouping
  /-- How many output rows are finished at a time. -/
  blockRows : FilterSize → Nat
  /-- How many groups a number of channels forms. -/
  groups : Nat → Nat
  /-- What the regime asks for beyond a valid shape. -/
  validate : FilterSize → Except Rejection Unit
  preparation : Preparation
  /-- The tap of a group at one position of a filter of `channels` channels. -/
  tapAt : (weights : Array Weight) → (channels : Nat) → FilterSize → (group position : Nat) → Tap
  /-- The channel a load counts up to before it reads a group. It need not exist. -/
  lastChannel : (group : Nat) → Nat
  /-- Whether the channels of a group have `count` columns from column `col` of row `row` on. -/
  covers : Planes Input → (group row col count : Nat) → Bool
  /-- The lane of a group for one column of one row. -/
  laneAt : Planes Input → (group row col : Nat) → Lane
  /-- The lane that stands for columns beyond a load. -/
  vacantLane : Lane
  /-- A cell that has received nothing. It is made only when an accumulator is, since the size of a
  cell can depend on numbers that `validate` refuses. -/
  vacantCell : Thunk Cell
  /-- An output element that has not been written. -/
  vacantOutput : Output
  /-- How many totals a cell consists of. -/
  totals : Except Fault Nat
  /-- Whether a lane and a tap can be multiplied. -/
  operable : Bool
  /-- The cell after its first contribution. -/
  first : Lane → Tap → Cell
  /-- The cell after a further contribution. -/
  later : Cell → Lane → Tap → Cell
  /-- The cell after all contributions of group `group` of `groups` from one input row. -/
  endGroup : FilterSize → (group groups : Nat) → Cell → Cell
  /-- Whether the cell can be stored. -/
  settled : Cell → Bool
  /-- The output element a cell stands for. -/
  result : Cell → Output

namespace Regime

variable {n : Nat}

/-- The taps of one filter: group after group, and in each group position after position. -/
def prepare (R : Regime) (weights : Array R.Weight) (channels : Nat) (filter : FilterSize) :
    Except Fault (Array R.Tap) := do
  let count ← Size.check (R.groups channels * filter.taps)
  let complete := require (channels * filter.taps ≤ weights.size) .outOfRange
  let room := Memory.reserve count R.footprint.tap
  match R.preparation with
  | .copied => complete
  | .converted => do complete; room
  | .gathered => do room; complete
  | .filled => room
  return Array.ofFn fun i : Fin (R.groups channels * filter.taps) =>
    R.tapAt weights channels filter (i / filter.taps) (i % filter.taps)

/-- Whether `count` lanes of a group can be loaded from column `col` of row `row` on. -/
def readable (R : Regime) (planes : Planes R.Input) (group row col count : Nat) : Bool :=
  R.lastChannel group < Size.bound && R.covers planes group row col count

/-- Load the active lanes of a register with a group, from column `col` of row `row` on. -/
def loadRow (R : Regime) (planes : Planes R.Input) (group row col : Nat)
    (register : Register R.Lane n) : Except Fault (Register R.Lane n) := do
  discard <| Size.check (R.lastChannel group)
  require (R.covers planes group row col register.width) .outOfRange
  return register.loadWith fun i => R.laneAt planes group row (col + i)

/-- Make room for registers and accumulators of `n` lanes. -/
def reserveLanes (R : Regime) (n : Nat) : Except Fault Unit := do
  discard R.totals
  Memory.reserve n R.footprint.lane

/-- Whether cells have no total. Then nothing is added to a cell and no output can be read off it,
and its accumulator does not even know its width. -/
def idle (R : Regime) : Bool :=
  match R.totals with
  | .ok 0 => true
  | _ => false

end Regime

/-- The totals of one output row, one in each lane. -/
abbrev Accumulator (R : Regime) (n : Nat) := Register R.Cell n

namespace Accumulator

variable {R : Regime} {n m : Nat}

/-- An accumulator that has received nothing. -/
def fresh (R : Regime) (n : Nat) : Accumulator R n := Register.replicate n R.vacantCell.get

/-- Change the number of active totals. -/
def setWidth (acc : Accumulator R n) (width : Nat) : Except Fault (Accumulator R n) :=
  if R.idle then .ok acc else Register.setWidth acc width

/-- Change every active total by the same lane of a register. Totals that do not exist cannot be
changed, and where none is active, no lane is multiplied. -/
def contribute (acc : Accumulator R n) (f : R.Cell → R.Lane → R.Cell)
    (register : Register R.Lane m) : Except Fault (Accumulator R n) :=
  if R.idle then .ok acc else do
    require (R.operable || acc.width == 0) .outOfRange
    acc.combine f register

/-- The first contribution, which replaces the totals. -/
def first (acc : Accumulator R n) (register : Register R.Lane m) (tap : R.Tap) :
    Except Fault (Accumulator R n) :=
  acc.contribute (fun _ lane => R.first lane tap) register

/-- A further contribution, which is added to the totals. -/
def later (acc : Accumulator R n) (register : Register R.Lane m) (tap : R.Tap) :
    Except Fault (Accumulator R n) :=
  acc.contribute (fun cell lane => R.later cell lane tap) register

/-- All contributions of one group from one input row are complete. -/
def endGroup (acc : Accumulator R n) (filter : FilterSize) (group groups : Nat) :
    Accumulator R n :=
  acc.map (R.endGroup filter group groups)

/-- Write the active totals into the `count` elements of `buffer` that follow `start`. Elements
behind the last active total stay as they are. -/
def store (acc : Accumulator R n) (buffer : Array R.Output) (start count : Nat) :
    Except Fault (Array R.Output) := do
  require (!R.idle && start + count ≤ buffer.size && acc.width ≤ count) .outOfRange
  require (acc.active.all R.settled) .brokenPrecondition
  return Buffer.overwrite buffer start (acc.active.toList.map R.result)

end Accumulator

end DirectConv
