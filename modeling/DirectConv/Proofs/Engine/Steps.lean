import DirectConv.Engine
import DirectConv.Proofs.Loop
import DirectConv.Proofs.Schedule

/-!
# The steps of a tile

What an engine does for a tile is a list of steps that is known before it begins: it depends on the
number of output rows and on the dimensions of the engine, and not on what is computed. Every step
works on one output row, or on the register, or on all slots at once. Performing the steps one after
the other is the same as computing the tile, also where a step has no answer.

## Main definitions

- `DirectConv.TileStep`: one step
- `DirectConv.TileStep.concerns`: whether a step works on an output row
- `DirectConv.Engine.TileState`, `DirectConv.Engine.perform`: what a step does
- `DirectConv.Blocking.rowSteps`, `DirectConv.Blocking.blockSteps`,
  `DirectConv.Blocking.scheduleSteps`: the steps of an input row, a block and a schedule
- `DirectConv.Engine.runSteps`: compute a tile step by step

## Main statements

- `DirectConv.Engine.runTile_eq_runSteps`: a tile is computed by its steps
-/

namespace DirectConv

/-- One step in the computation of a tile. -/
inductive TileStep where
  /-- Load channel group `group` of input row `row`. -/
  | load (row group : Nat)
  /-- Contribute to output row `row` through one place of the filter. -/
  | contribute (row kernelRow group column : Nat)
  /-- Slide the register to the next filter column. -/
  | slide
  /-- Output row `row` has received all contributions of a group through a filter row. -/
  | endGroup (row kernelRow group : Nat)
  /-- Store output row `row`. -/
  | store (row : Nat)
  /-- Move the accumulators on to the next block. -/
  | rotate
  deriving DecidableEq

namespace TileStep

/-- Whether a step works on output row `row`. -/
def concerns (row : Nat) : TileStep → Bool
  | contribute r _ _ _ => r == row
  | endGroup r _ _ => r == row
  | store r => r == row
  | load _ _ => false
  | slide => false
  | rotate => false

/-- The input row and the group that a step loads. -/
def loaded? : TileStep → Option (Nat × Nat)
  | load row group => some (row, group)
  | _ => none

end TileStep

namespace Blocking

variable (b : Blocking)

/-- The steps of one filter column of input row `row`, which contributes through the given filter
rows. -/
def columnSteps (kernelRows : List Nat) (row group column : Nat) : List TileStep :=
  kernelRows.map (fun d => .contribute (row - d) d group column) ++
    if column + 1 < b.filter.side then [.slide] else []

/-- The steps of one group of an input row. -/
def groupSteps (kernelRows : List Nat) (row group : Nat) : List TileStep :=
  .load row group :: ((List.range b.filter.side).flatMap (b.columnSteps kernelRows row group) ++
    kernelRows.map fun d => .endGroup (row - d) d group)

/-- The steps of input row `row` for a plane of `rows` output rows. -/
def rowSteps (rows row : Nat) : List TileStep :=
  (List.range b.groups).flatMap (b.groupSteps (kernelRows b.filter.side rows row) row)

/-- The steps of a block: its input rows, and then its output rows. -/
def blockSteps (rows : Nat) (block : RowBlock) : List TileStep :=
  (block.fed b.filter.carry).flatMap (b.rowSteps rows) ++ block.stored.map .store

/-- The steps of the blocks of a schedule. -/
def blocksSteps (rows : Nat) (schedule : Schedule) : List TileStep :=
  schedule.steady.flatMap (fun block => b.blockSteps rows block ++ [.rotate]) ++
    b.blockSteps rows schedule.drain

/-- The steps of a schedule. -/
def scheduleSteps (rows : Nat) (schedule : Schedule) : List TileStep :=
  (List.range b.filter.carry).flatMap (b.rowSteps rows) ++ b.blocksSteps rows schedule

end Blocking

namespace Engine

variable {R : Regime} {b : Blocking}

/-- An engine that computes a tile of an output plane. -/
structure TileState (R : Regime) (b : Blocking) where
  /-- The output row of the first slot. -/
  base : Nat
  engine : Engine R b
  plane : Array R.Output

/-- Perform one step in a tile of an output plane with `cols` columns. -/
def perform (job : Job R) (cols : Nat) (state : TileState R b) :
    TileStep → Except Fault (TileState R b)
  | .load row group => do
    let register ← R.loadRow job.planes group row job.tile.col state.engine.register
    return { state with engine := { state.engine with register } }
  | .contribute row kernelRow group column => do
    let engine ← contribute job state.base (row + kernelRow) group column state.engine kernelRow
    return { state with engine }
  | .slide =>
    let register := state.engine.register.slideDown R.vacantLane 1
    return { state with engine := { state.engine with register } }
  | .endGroup row _ group => do
    let engine ← state.engine.updateRow state.base row fun acc =>
      return acc.endGroup b.filter group b.groups
    return { state with engine }
  | .store row => do
    require (state.base ≤ row) .outOfRange
    let plane ← state.engine.storeRow job.tile cols state.base state.plane (row - state.base)
    return { state with plane }
  | .rotate => return { state with base := state.base + b.block, engine := state.engine.rotate }

/-- Compute a tile of an output plane step by step. -/
def runSteps (engine : Engine R b) (job : Job R) (plane : Array R.Output) :
    Except Fault (Engine R b × Array R.Output × TileStats) := do
  let rows ← Size.windowStarts job.planes.height b.filter.side
  let cols ← Size.windowStarts job.planes.width b.filter.side
  require (0 < rows && plane.size == rows * cols && job.taps.size == b.groups * b.filter.taps)
    .brokenPrecondition
  let engine ← engine.setTile job.tile
  let schedule := Schedule.ofRows b.block rows b.block_pos
  let state ← (b.scheduleSteps rows schedule).foldlM (perform job cols) ⟨0, engine, plane⟩
  return (state.engine, state.plane, statsOf schedule)

variable (job : Job R) (rows cols base : Nat) (plane : Array R.Output)

/-- A slide to the next filter column, if there is one. -/
theorem columnSteps_foldlM {kernelRows : List Nat} {row : Nat} (hle : ∀ d ∈ kernelRows, d ≤ row)
    (group column : Nat) (engine : Engine R b) :
    (b.columnSteps kernelRows row group column).foldlM (perform job cols) ⟨base, engine, plane⟩ =
      (⟨base, ·, plane⟩) <$> feedColumn job base row group kernelRows engine column := by
  have hcontribute := foldlM_map_hom (fun d => TileStep.contribute (row - d) d group column)
    (TileState.mk base · plane) kernelRows (g := perform job cols)
    (f := contribute job base row group column)
    (fun d hd engine => by rw [perform, Nat.sub_add_cancel (hle d hd)]; rfl) engine
  rw [Blocking.columnSteps, List.foldlM_append, hcontribute, feedColumn, map_bind, bind_map_left]
  refine bind_congr fun engine' => ?_
  split
  · rfl
  · rfl

theorem groupSteps_foldlM {kernelRows : List Nat} {row : Nat} (hle : ∀ d ∈ kernelRows, d ≤ row)
    (group : Nat) (engine : Engine R b) :
    (b.groupSteps kernelRows row group).foldlM (perform job cols) ⟨base, engine, plane⟩ =
      (⟨base, ·, plane⟩) <$> feedGroup job base row kernelRows engine group := by
  rw [Blocking.groupSteps, List.foldlM_cons, perform, feedGroup, map_bind, bind_assoc]
  refine bind_congr fun register => ?_
  rw [pure_bind, List.foldlM_append, map_bind]
  have hcolumns := foldlM_flatMap_hom (TileState.mk base · plane) (List.range b.filter.side)
    (g := perform job cols)
    (fun column _ engine => columnSteps_foldlM job cols base plane hle group column engine)
    { engine with register }
  rw [hcolumns, bind_map_left]
  exact bind_congr fun engine' => foldlM_map_hom (fun d => TileStep.endGroup (row - d) d group)
    (TileState.mk base · plane) kernelRows (fun _ _ _ => rfl) engine'

/-- The steps of input rows that all reach an output row, so that none of them is passed over. -/
theorem rowSteps_foldlM {inputRows : List Nat}
    (hreach : ∀ row ∈ inputRows, kernelRows b.filter.side rows row ≠ []) (engine : Engine R b) :
    (inputRows.flatMap (b.rowSteps rows)).foldlM (perform job cols) ⟨base, engine, plane⟩ =
      (⟨base, ·, plane⟩) <$> inputRows.foldlM (feedRow job base rows) engine := by
  refine foldlM_flatMap_hom (TileState.mk base · plane) inputRows (fun row hrow engine => ?_) engine
  have hle : ∀ d ∈ kernelRows b.filter.side rows row, d ≤ row := fun d hd =>
    ((mem_kernelRows b.filter.side_pos).1 hd).2.1
  rw [feedRow]
  split
  · rename_i hnil
    exact absurd hnil (hreach row hrow)
  · rename_i d rest hcons
    rw [← hcons]
    exact foldlM_flatMap_hom (TileState.mk base · plane) _
      (fun group _ engine => groupSteps_foldlM job cols base plane hle group engine) engine

/-- The steps of a block whose input rows all reach an output row. -/
theorem blockSteps_foldlM (block : RowBlock)
    (hreach : ∀ row ∈ block.fed b.filter.carry, kernelRows b.filter.side rows row ≠ [])
    (engine : Engine R b) :
    (b.blockSteps rows block).foldlM (perform job cols) ⟨block.base, engine, plane⟩ =
      (fun state => ⟨block.base, state.1, state.2⟩) <$>
        finishBlock job rows cols block (engine, plane) := by
  rw [Blocking.blockSteps, List.foldlM_append, rowSteps_foldlM job rows cols _ plane hreach,
    finishBlock, map_bind, bind_map_left]
  refine bind_congr fun engine' => ?_
  have hstore := foldlM_map_hom (fun slot => TileStep.store (block.base + slot))
    (fun plane : Array R.Output => TileState.mk block.base engine' plane) (List.range block.rows)
    (f := engine'.storeRow job.tile cols block.base) (g := perform job cols)
    (fun slot _ plane => by
      rw [perform, Nat.add_sub_cancel_left, decide_eq_true (Nat.le_add_right _ _)]
      rfl) plane
  rw [map_bind, RowBlock.stored, List.range'_eq_map_range, List.map_map]
  refine Eq.trans hstore ?_
  rw [map_eq_pure_bind]
  rfl

/-- The steps of the blocks from an output row on. -/
theorem blocksSteps_foldlM {base : Nat} (hbase : base < rows) (engine : Engine R b)
    (plane : Array R.Output) :
    let schedule := Schedule.startingAt b.block rows b.block_pos base
    (b.blocksSteps rows schedule).foldlM (perform job cols) ⟨base, engine, plane⟩ =
      (fun state => ⟨schedule.drain.base, state.1, state.2⟩) <$>
        (schedule.steady.foldlM (steadyBlock job rows cols) (engine, plane) >>=
          finishBlock job rows cols schedule.drain) := by
  -- a block reads no row that is passed over, and the rotation goes on to the next block
  induction base using Schedule.startingAt.induct b.block rows b.block_pos
    generalizing engine plane with
  | case1 base hlt ih =>
    have hblock := blockSteps_foldlM job rows cols plane ⟨base, b.block⟩
      (fun row => RowBlock.kernelRows_ne_nil b.filter.carry_add_one
        (show base + b.block ≤ rows by omega)) engine
    rw [Schedule.startingAt, if_pos hlt]
    simp only [Blocking.blocksSteps, List.flatMap_cons, List.append_assoc, List.foldlM_append,
      List.foldlM_cons, steadyBlock, bind_assoc, hblock, bind_map_left, map_bind]
    refine bind_congr fun state => ?_
    have hrest := ih (by omega) state.1.rotate state.2
    simp only [Blocking.blocksSteps, List.foldlM_append, map_bind] at hrest
    simp only [perform, List.foldlM_nil, pure_bind]
    exact hrest
  | case2 base hlast =>
    rw [Schedule.startingAt, if_neg hlast]
    exact blockSteps_foldlM job rows cols plane ⟨base, rows - base⟩
      (fun row => RowBlock.kernelRows_ne_nil b.filter.carry_add_one
        (Nat.le_of_eq (Nat.add_sub_cancel' (Nat.le_of_lt hbase)))) engine

/-- A schedule is followed by performing its steps. -/
theorem scheduleSteps_foldlM (hrows : 0 < rows) (engine : Engine R b) :
    let schedule := Schedule.ofRows b.block rows b.block_pos
    (b.scheduleSteps rows schedule).foldlM (perform job cols) ⟨0, engine, plane⟩ =
      (fun state => ⟨schedule.drain.base, state.1, state.2⟩) <$>
        runSchedule job rows cols schedule engine plane := by
  have hcarry := b.filter.carry_add_one
  have hreach : ∀ row ∈ List.range b.filter.carry, kernelRows b.filter.side rows row ≠ [] := by
    intro row hrow
    have hlt : row < b.filter.carry := List.mem_range.1 hrow
    exact kernelRows_ne_nil b.filter.side_pos hrows (by omega)
  have hpreload := rowSteps_foldlM job rows cols 0 plane hreach engine
  simp only [Blocking.scheduleSteps, List.foldlM_append, hpreload, runSchedule, bind_map_left,
    map_bind]
  refine bind_congr fun engine' => ?_
  exact (blocksSteps_foldlM job rows cols hrows engine' plane).trans (map_bind _ _ _)

/-- A tile is computed by its steps. -/
theorem runTile_eq_runSteps (engine : Engine R b) :
    engine.runTile job plane = engine.runSteps job plane := by
  rw [runTile, runSteps]
  refine bind_congr fun rows => bind_congr fun cols => ?_
  by_cases hrows : 0 < rows
  · refine bind_congr fun _ => bind_congr fun started => ?_
    simp only [scheduleSteps_foldlM job rows cols plane hrows started, bind_map_left]
  -- an output without rows is refused
  · rw [decide_eq_false hrows]
    rfl

end Engine

end DirectConv
