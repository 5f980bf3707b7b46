/-!
# The order of rows

The rows of an output plane are finished in blocks of a fixed number of rows. While a block is
worked on, one accumulator is kept for each row of the block and for each of the rows behind it
that its input rows reach. A tile begins with the input rows that come before the first block can
be completed, goes on with full blocks while more than one block of output rows is left, and ends
with a block for the rows that are left, which is full if there are as many as in a block.

## Main definitions

- `DirectConv.RowBlock`: consecutive output rows that are finished together
- `DirectConv.RowBlock.fed`, `DirectConv.RowBlock.stored`: the input rows a block reads and the
  output rows it writes
- `DirectConv.Schedule`: the blocks of a plane
- `DirectConv.Schedule.ofRows`: the schedule for a number of output rows
- `DirectConv.kernelRows`: the rows of the filter through which an input row contributes

## Main statements

- `DirectConv.Schedule.drain_rows`: the last block is neither empty nor longer than the others
- `DirectConv.mem_kernelRows`: a filter row is used exactly if it leads to an output row
-/

namespace DirectConv

/-- Consecutive output rows that are finished together. -/
structure RowBlock where
  /-- The first output row. -/
  base : Nat
  /-- The number of output rows. -/
  rows : Nat
  deriving DecidableEq

namespace RowBlock

/-- The input rows that complete the block, for filters that leave `carry` rows unfinished. -/
def fed (block : RowBlock) (carry : Nat) : List Nat := List.range' (block.base + carry) block.rows

/-- The output rows of the block. -/
def stored (block : RowBlock) : List Nat := List.range' block.base block.rows

end RowBlock

/-- The blocks of an output plane: full blocks, and a last one for the rows that are left. -/
structure Schedule where
  /-- The full blocks that more rows follow. -/
  steady : List RowBlock
  drain : RowBlock
  deriving DecidableEq

namespace Schedule

/-- The schedule for the output rows from `base` up to `rows`, in blocks of `size` rows. A full
block is finished only while more than a block is left, so that the last block is never empty. -/
def startingAt (size rows : Nat) (h : 0 < size) (base : Nat) : Schedule :=
  if size < rows - base then
    let rest := Schedule.startingAt size rows h (base + size)
    { rest with steady := ⟨base, size⟩ :: rest.steady }
  else ⟨[], ⟨base, rows - base⟩⟩
termination_by rows - base

/-- The schedule for a plane of `rows` output rows, in blocks of `size` rows. -/
def ofRows (size rows : Nat) (h : 0 < size) : Schedule := Schedule.startingAt size rows h 0

/-- The last block has at least one row, and no more than a full block. -/
theorem drain_rows {size rows base : Nat} (h : 0 < size) (hbase : base < rows) :
    0 < (startingAt size rows h base).drain.rows ∧
      (startingAt size rows h base).drain.rows ≤ size := by
  induction base using startingAt.induct size rows h with
  | case1 base hlt ih =>
    rw [startingAt, if_pos hlt]
    exact ih (by omega)
  | case2 base hlast =>
    rw [startingAt, if_neg hlast]
    show 0 < rows - base ∧ rows - base ≤ size
    omega

/-- All blocks, from the first output row to the last. -/
def blocks (schedule : Schedule) : List RowBlock := schedule.steady ++ [schedule.drain]

/-- The input rows in the order in which they are read, for filters that leave `carry` rows
unfinished. -/
def fed (schedule : Schedule) (carry : Nat) : List Nat :=
  List.range carry ++ schedule.blocks.flatMap (·.fed carry)

/-- The output rows in the order in which they are written. -/
def stored (schedule : Schedule) : List Nat := schedule.blocks.flatMap (·.stored)

end Schedule

/-- The rows of a filter with `side` rows through which input row `row` contributes to one of the
first `rows` output rows: row `d` contributes to output row `row - d`. -/
def kernelRows (side rows row : Nat) : List Nat :=
  let least := row + 1 - rows
  List.range' least (min (side - 1) row + 1 - least)

/-- A filter row is used exactly if it belongs to the filter and leads to an output row. -/
theorem mem_kernelRows {side rows row d : Nat} (hside : 0 < side) :
    d ∈ kernelRows side rows row ↔ d < side ∧ d ≤ row ∧ row - d < rows := by
  simp only [kernelRows, List.mem_range'_1]
  omega

/-- The first input row reaches the first output row and no other. -/
theorem kernelRows_zero {side rows : Nat} (hrows : 0 < rows) : kernelRows side rows 0 = [0] := by
  have hleast : 0 + 1 - rows = 0 := by omega
  simp [kernelRows, hleast]

end DirectConv
