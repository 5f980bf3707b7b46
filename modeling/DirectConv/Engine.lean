import DirectConv.Log
import DirectConv.Regime
import DirectConv.Schedule
import DirectConv.Tile

/-!
# The row-block engine

The engine computes one tile of one output plane. It keeps one accumulator for each output row it
works on: slot `k` belongs to output row `base + k`, where `base` is the first row that is not
stored yet. Every input row is loaded once for each channel group and then slid down by one lane
for each further column of the filter; from each position it contributes to all output rows that
one of its filter rows leads to. After a block of rows has been stored, the unfinished rows move to
the first slots.

An output row receives its contributions by filter row, then channel group, then filter column,
whatever the tile and the block are. The first of them replaces what the accumulator held.

## Main definitions

- `DirectConv.Blocking`: the dimensions of an engine
- `DirectConv.Engine`: the register and the accumulators
- `DirectConv.Engine.make`: an engine, if there is room for it
- `DirectConv.Job`: what a tile is computed from
- `DirectConv.Engine.feedRow`: apply one input row
- `DirectConv.Engine.storeBlock`: write the rows of a block
- `DirectConv.Engine.rotate`: move the unfinished rows to the first slots
- `DirectConv.Engine.runTile`: compute a tile
-/

namespace DirectConv

/-- The dimensions of an engine. -/
structure Blocking where
  filter : FilterSize
  /-- Output rows that are finished at a time. -/
  block : Nat
  groups : Nat
  /-- Lanes of a register. -/
  maxLanes : Nat
  block_pos : 0 < block
  /-- A register holds at least one window. -/
  side_le : filter.side ≤ maxLanes

namespace Blocking

/-- The number of accumulators: one for each row of a block, and one for each row behind it that
its input rows reach. -/
def slots (b : Blocking) : Nat := b.block + b.filter.carry

/-- Dimensions that satisfy both conditions and a number of accumulators that is a size. -/
def of (filter : FilterSize) (block groups maxLanes : Nat) : Except Fault Blocking := do
  if h : 0 < block ∧ filter.side ≤ maxLanes then
    discard <| Size.check (block + filter.side)
    return { filter, block, groups, maxLanes, block_pos := h.1, side_le := h.2 }
  else throw .brokenPrecondition

theorem slots_pos (b : Blocking) : 0 < b.slots := Nat.add_pos_left b.block_pos _

end Blocking

/-- A register for input rows and the accumulators of the output rows in progress. -/
structure Engine (R : Regime) (b : Blocking) where
  /-- The input row that is being applied. -/
  register : Register R.Lane b.maxLanes
  /-- The output rows in progress. -/
  slots : Vector (Accumulator R b.maxLanes) b.slots

/-- What a tile of an output plane is computed from. -/
structure Job (R : Regime) where
  planes : Planes R.Input
  taps : Array R.Tap
  tile : Tile

namespace Engine

variable {R : Regime} {b : Blocking}

/-- An engine that has not computed anything. -/
def fresh (R : Regime) (b : Blocking) : Engine R b where
  register := Register.replicate b.maxLanes R.vacantLane
  slots := Vector.replicate b.slots (Accumulator.fresh R b.maxLanes)

/-- An engine that has not computed anything, if there is room for it. -/
def make (R : Regime) (b : Blocking) : Except Fault (Engine R b) := do
  Memory.reserve b.slots R.footprint.slot
  R.reserveLanes b.maxLanes
  return fresh R b

/-- Make the columns of a tile the active lanes. -/
def setTile (engine : Engine R b) (tile : Tile) : Except Fault (Engine R b) := do
  let register ← engine.register.setWidth tile.inWidth
  if h : tile.outWidth ≤ b.maxLanes then
    return { register, slots := engine.slots.map (·.withWidth tile.outWidth h) }
  else throw .brokenPrecondition

/-- Change the accumulator of output row `row`. -/
def updateRow (engine : Engine R b) (base row : Nat)
    (f : Accumulator R b.maxLanes → Except Fault (Accumulator R b.maxLanes)) :
    Except Fault (Engine R b) :=
  if h : base ≤ row ∧ row - base < b.slots then do
    let acc ← f (engine.slots.get ⟨row - base, h.2⟩)
    return { engine with slots := engine.slots.set (row - base) acc h.2 }
  else throw .outOfRange

/-- Let the register, which holds group `group` of input row `row` from filter column `column` on,
contribute through filter row `kernelRow`. -/
def contribute (job : Job R) (base row group column : Nat) (engine : Engine R b)
    (kernelRow : Nat) : Except Fault (Engine R b) :=
  match job.taps[(group * b.filter.side + kernelRow) * b.filter.side + column]? with
  | none => throw .outOfRange
  | some tap =>
    engine.updateRow base (row - kernelRow) fun acc =>
      if kernelRow = 0 ∧ group = 0 ∧ column = 0 then acc.first engine.register tap
      else acc.later engine.register tap

/-- Let the register contribute through one column of the filter, and slide it down for the next
one. -/
def feedColumn (job : Job R) (base row group : Nat) (kernelRows : List Nat)
    (engine : Engine R b) (column : Nat) : Except Fault (Engine R b) := do
  let engine ← kernelRows.foldlM (contribute job base row group column) engine
  if column + 1 < b.filter.side then
    return { engine with register := engine.register.slideDown R.vacantLane 1 }
  else return engine

/-- Apply one channel group of input row `row` through the given filter rows. -/
def feedGroup (job : Job R) (base row : Nat) (kernelRows : List Nat) (engine : Engine R b)
    (group : Nat) : Except Fault (Engine R b) := do
  let register ← R.loadRow job.planes group row job.tile.col engine.register
  let engine ← (List.range b.filter.side).foldlM (feedColumn job base row group kernelRows)
    { engine with register }
  kernelRows.foldlM
    (fun engine kernelRow => engine.updateRow base (row - kernelRow) fun acc =>
      return acc.endGroup b.filter group b.groups)
    engine

/-- Apply input row `row` to all of the first `rows` output rows that it reaches. -/
def feedRow (job : Job R) (base rows : Nat) (engine : Engine R b) (row : Nat) :
    Except Fault (Engine R b) :=
  match kernelRows b.filter.side rows row with
  | [] => return engine
  | kernelRow :: more =>
    (List.range b.groups).foldlM (feedGroup job base row (kernelRow :: more)) engine

/-- Store the accumulator of slot `slot` into its row of an output plane with `cols` columns. -/
def storeRow (engine : Engine R b) (tile : Tile) (cols base : Nat) (plane : Array R.Output)
    (slot : Nat) : Except Fault (Array R.Output) :=
  if h : slot < b.slots then
    (engine.slots.get ⟨slot, h⟩).store plane ((base + slot) * cols + tile.col) tile.outWidth
  else throw .outOfRange

/-- Store the rows of a block. -/
def storeBlock (engine : Engine R b) (tile : Tile) (cols : Nat) (block : RowBlock)
    (plane : Array R.Output) : Except Fault (Array R.Output) :=
  (List.range block.rows).foldlM (engine.storeRow tile cols block.base) plane

/-- Move every accumulator a block down, the first ones behind the last. -/
def rotate (engine : Engine R b) : Engine R b :=
  { engine with
    slots := Vector.ofFn fun i =>
      engine.slots.get ⟨(i.val + b.block) % b.slots, Nat.mod_lt _ b.slots_pos⟩ }

/-- Read the input rows of a block and store its output rows. -/
def finishBlock (job : Job R) (rows cols : Nat) (block : RowBlock)
    (state : Engine R b × Array R.Output) : Except Fault (Engine R b × Array R.Output) := do
  let engine ← (block.fed b.filter.carry).foldlM (feedRow job block.base rows) state.1
  let plane ← engine.storeBlock job.tile cols block state.2
  return (engine, plane)

/-- Finish a block that more rows follow. -/
def steadyBlock (job : Job R) (rows cols : Nat) (state : Engine R b × Array R.Output)
    (block : RowBlock) : Except Fault (Engine R b × Array R.Output) := do
  let (engine, plane) ← finishBlock job rows cols block state
  return (engine.rotate, plane)

/-- Follow the schedule of a tile of an output plane of `rows` rows and `cols` columns. -/
def runSchedule (job : Job R) (rows cols : Nat) (schedule : Schedule) (engine : Engine R b)
    (plane : Array R.Output) : Except Fault (Engine R b × Array R.Output) := do
  let engine ← (List.range b.filter.carry).foldlM (feedRow job 0 rows) engine
  let state ← schedule.steady.foldlM (steadyBlock job rows cols) (engine, plane)
  finishBlock job rows cols schedule.drain state

/-- What happened in a tile that followed a schedule. -/
def statsOf (schedule : Schedule) : TileStats where
  steadyBlocks := schedule.steady.length
  drainedRows := schedule.drain.rows

/-- Compute a tile of an output plane. The plane has one row and one column for each position of
the filter in the input, and there is one tap for each position of the filter in each group. -/
def runTile (engine : Engine R b) (job : Job R) (plane : Array R.Output) :
    Except Fault (Engine R b × Array R.Output × TileStats) := do
  let rows ← Size.windowStarts job.planes.height b.filter.side
  let cols ← Size.windowStarts job.planes.width b.filter.side
  require (0 < rows && plane.size == rows * cols && job.taps.size == b.groups * b.filter.taps)
    .brokenPrecondition
  let engine ← engine.setTile job.tile
  let schedule := Schedule.ofRows b.block rows b.block_pos
  let (engine, plane) ← runSchedule job rows cols schedule engine plane
  return (engine, plane, statsOf schedule)

/-- What is reported about a tile. -/
def report (b : Blocking) (tile : Tile) (stats : TileStats) : LogEntry :=
  .tile tile.col tile.outWidth b.filter b.block stats

end Engine

end DirectConv
