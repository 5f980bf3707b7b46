import DirectConv.Engine
import DirectConv.Shape

/-!
# Plans

A plan fixes everything a convolution needs before its buffers are looked at. All conditions on
shape, vector unit, regime and row block are checked when the plan is made, in this order, so that
carrying out a plan on buffers of the right lengths cannot fail while there is room in memory.

## Main definitions

- `DirectConv.Plan`: the parameters of a convolution
- `DirectConv.Plan.make`: the plan for a request, or the first condition that does not hold
- `DirectConv.Plan.tiles`, `DirectConv.Plan.tileCount`: the tiles of every output plane
- `DirectConv.Plan.run`: carry out the plan
-/

namespace DirectConv

/-- The parameters of a convolution. -/
structure Plan where
  shape : Shape
  filter : FilterSize
  /-- Lanes of a register; no more than a row has columns. -/
  maxLanes : Nat
  /-- Output rows that are finished at a time. -/
  block : Nat
  groups : Nat
  deriving DecidableEq

namespace Plan

/-- The plan for a shape and a vector unit. The regime chooses the number of rows of a block unless
`block` does. -/
def make (R : Regime) (shape : Shape) (unit : VectorUnit) (block : Option Nat) :
    Except Rejection Plan := do
  let filter ← shape.validate
  unit.validate
  R.validate filter
  let maxLanes := min (unit.lanesFor R.elementBits R.grouping) shape.width
  if maxLanes < filter.side then throw (.tooFewLanes maxLanes filter)
  let block := block.getD (R.blockRows filter)
  if block = 0 then throw .emptyBlock
  return { shape, filter, maxLanes, block, groups := R.groups shape.channels }

/-- The tiles of an output plane. -/
def tiles (plan : Plan) : Except Fault TileCursor :=
  TileCursor.start plan.shape.width plan.filter.side plan.maxLanes

/-- How many tiles an output plane has. -/
def tileCount (plan : Plan) : Except Fault Nat := do
  let tiles ← plan.tiles
  return tiles.remaining

/-- A convolution in progress. -/
structure Progress (R : Regime) (b : Blocking) where
  /-- The engine, in the state in which the last tile left it. -/
  engine : Engine R b
  /-- The output elements that have been computed or copied. -/
  buffer : Array R.Output
  log : Array LogEntry

variable {R : Regime} {b : Blocking}

/-- Compute one tile of the output plane in the buffer. -/
def runTile (planes : Planes R.Input) (taps : Array R.Tap) (progress : Progress R b)
    (tile : Tile) : Except Fault (Progress R b) := do
  let (engine, buffer, stats) ← progress.engine.runTile { planes, taps, tile } progress.buffer
  return { engine, buffer, log := progress.log.push (Engine.report b tile stats) }

/-- Compute the output plane of filter `index` from its part of the filter bank, and append it to
the planes before it. The plane starts from what the output holds at its place. -/
def runFilter (plan : Plan) (planes : Planes R.Input) (tiles : List Tile)
    (output : Array R.Output) (weights : Array R.Weight) (progress : Progress R b)
    (index : Nat) : Except Fault (Progress R b) := do
  let shape := plan.shape
  let bankSize := shape.channels * plan.filter.taps
  let bank ← Buffer.slice weights (index * bankSize) bankSize
  let taps ← R.prepare bank shape.channels plan.filter
  let plane ← Buffer.slice output (index * shape.planeSize) shape.planeSize
  let done ← tiles.foldlM (runTile planes taps) { progress with buffer := plane }
  return { done with buffer := progress.buffer ++ done.buffer }

/-- Carry out the plan. The result is the output and what is reported; the lengths of the buffers
are those the shape asks for. -/
def run (R : Regime) (plan : Plan) (output : Array R.Output) (input : Array R.Input)
    (weights : Array R.Weight) : Except Fault (Array R.Output × Array LogEntry) := do
  let shape := plan.shape
  let tiles ← plan.tiles
  let opening := LogEntry.convolution R.name shape plan.filter plan.maxLanes plan.block
    tiles.remaining
  let planes ← Planes.ofArray input shape.channels shape.height shape.width
  require (0 < shape.planeSize) .brokenPrecondition
  let b ← Blocking.of plan.filter plan.block plan.groups plan.maxLanes
  let engine ← Engine.make R b
  let done ← (List.range shape.outputs).foldlM
    (runFilter plan planes tiles.toList output weights)
    { engine, buffer := #[], log := #[opening] }
  return (done.buffer, done.log)

end Plan

end DirectConv
