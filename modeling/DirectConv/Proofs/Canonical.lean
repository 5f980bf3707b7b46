import DirectConv.Proofs.Loop
import DirectConv.Regime

/-!
# The canonical order

An output element is read off a cell that has received one contribution for each filter row,
channel group and filter column, in this order. `Regime.Terms` says what is multiplied for one
element; its functions follow the cell from its first contribution to its last. There is no slot,
block or tile here: this is what the engine is compared with.

## Main definitions

- `DirectConv.Regime.Terms`: the lanes and the taps that meet in one output element
- `DirectConv.Regime.Terms.step`, `DirectConv.Regime.Terms.addColumns`,
  `DirectConv.Regime.Terms.addGroups`, `DirectConv.Regime.Terms.addRows`: the cell after one
  contribution, and after the first columns, groups and rows of the filter
- `DirectConv.Regime.Terms.cell`: the finished cell

## Main statements

- `DirectConv.Regime.Terms.addRows_eq_of_pos`: what a cell held before does not matter
-/

namespace DirectConv.Regime

/-- What is multiplied for one output element, by filter row, channel group and filter column. -/
structure Terms (R : Regime) where
  lane : (kernelRow group column : Nat) → R.Lane
  tap : (kernelRow group column : Nat) → R.Tap

namespace Terms

variable {R : Regime} (T : R.Terms) (filter : FilterSize) (groups : Nat)

/-- The cell after one contribution. The first one of all replaces the cell. -/
def step (kernelRow group : Nat) (cell : R.Cell) (column : Nat) : R.Cell :=
  if kernelRow = 0 ∧ group = 0 ∧ column = 0 then
    R.first (T.lane kernelRow group column) (T.tap kernelRow group column)
  else R.later cell (T.lane kernelRow group column) (T.tap kernelRow group column)

/-- The cell after the first `count` columns of one filter row and group. -/
def addColumns (kernelRow group count : Nat) (cell : R.Cell) : R.Cell :=
  (List.range count).foldl (T.step kernelRow group) cell

/-- The cell after all columns of one filter row and group. -/
def addGroup (kernelRow : Nat) (cell : R.Cell) (group : Nat) : R.Cell :=
  R.endGroup filter group groups (T.addColumns kernelRow group filter.side cell)

/-- The cell after the first `count` groups of one filter row. -/
def addGroups (kernelRow count : Nat) (cell : R.Cell) : R.Cell :=
  (List.range count).foldl (T.addGroup filter groups kernelRow) cell

/-- The cell after one filter row. -/
def addRow (cell : R.Cell) (kernelRow : Nat) : R.Cell :=
  T.addGroups filter groups kernelRow groups cell

/-- The cell after the first `count` filter rows. -/
def addRows (count : Nat) (cell : R.Cell) : R.Cell :=
  (List.range count).foldl (T.addRow filter groups) cell

/-- The cell after all contributions. -/
def cell : R.Cell := T.addRows filter groups filter.side R.vacantCell.get

@[simp] theorem addColumns_zero (kernelRow group : Nat) (cell : R.Cell) :
    T.addColumns kernelRow group 0 cell = cell := rfl

theorem addColumns_succ (kernelRow group count : Nat) (cell : R.Cell) :
    T.addColumns kernelRow group (count + 1) cell =
      T.step kernelRow group (T.addColumns kernelRow group count cell) count :=
  foldl_range_succ _ _ _

@[simp] theorem addGroups_zero (kernelRow : Nat) (cell : R.Cell) :
    T.addGroups filter groups kernelRow 0 cell = cell := rfl

theorem addGroups_succ (kernelRow count : Nat) (cell : R.Cell) :
    T.addGroups filter groups kernelRow (count + 1) cell =
      T.addGroup filter groups kernelRow (T.addGroups filter groups kernelRow count cell) count :=
  foldl_range_succ _ _ _

@[simp] theorem addRows_zero (cell : R.Cell) : T.addRows filter groups 0 cell = cell := rfl

theorem addRows_succ (count : Nat) (cell : R.Cell) :
    T.addRows filter groups (count + 1) cell =
      T.addRow filter groups (T.addRows filter groups count cell) count :=
  foldl_range_succ _ _ _

variable {filter groups}

theorem addColumns_eq_of_pos {count : Nat} (h : 0 < count) (cell cell' : R.Cell) :
    T.addColumns 0 0 count cell = T.addColumns 0 0 count cell' := by
  induction count with
  | zero => exact absurd h (Nat.lt_irrefl 0)
  | succ count ih =>
    rw [addColumns_succ, addColumns_succ]
    cases count with
    | zero => simp [step]
    | succ count => rw [ih (Nat.succ_pos _)]

theorem addGroups_eq_of_pos {count : Nat} (h : 0 < count) (cell cell' : R.Cell) :
    T.addGroups filter groups 0 count cell = T.addGroups filter groups 0 count cell' := by
  induction count with
  | zero => exact absurd h (Nat.lt_irrefl 0)
  | succ count ih =>
    rw [addGroups_succ, addGroups_succ]
    cases count with
    | zero =>
      rw [addGroup, addGroup, addGroups_zero, addGroups_zero,
        T.addColumns_eq_of_pos filter.side_pos cell cell']
    | succ count => rw [ih (Nat.succ_pos _)]

/-- A cell that has received a row does not depend on what it held before. -/
theorem addRows_eq_of_pos {count : Nat} (h : 0 < count) (hgroups : 0 < groups)
    (cell cell' : R.Cell) :
    T.addRows filter groups count cell = T.addRows filter groups count cell' := by
  induction count with
  | zero => exact absurd h (Nat.lt_irrefl 0)
  | succ count ih =>
    rw [addRows_succ, addRows_succ]
    cases count with
    | zero => exact T.addGroups_eq_of_pos hgroups _ _
    | succ count => rw [ih (Nat.succ_pos _)]

/-- The finished cell, whatever it held before its first contribution. -/
theorem addRows_side_eq_cell (hgroups : 0 < groups) (cell : R.Cell) :
    T.addRows filter groups filter.side cell = T.cell filter groups :=
  T.addRows_eq_of_pos filter.side_pos hgroups _ _

/-- Only the terms of the window matter. -/
theorem cell_congr {T T' : R.Terms}
    (h : ∀ kernelRow < filter.side, ∀ group < groups, ∀ column < filter.side,
      T.lane kernelRow group column = T'.lane kernelRow group column ∧
        T.tap kernelRow group column = T'.tap kernelRow group column) :
    T.cell filter groups = T'.cell filter groups := by
  refine List.foldl_ext _ _ _ fun cell kernelRow hrow => ?_
  refine List.foldl_ext _ _ _ fun cell group hgroup => ?_
  refine congrArg _ (List.foldl_ext _ _ _ fun cell column hcolumn => ?_)
  obtain ⟨hlane, htap⟩ := h kernelRow (List.mem_range.1 hrow) group (List.mem_range.1 hgroup)
    column (List.mem_range.1 hcolumn)
  rw [step, step, hlane, htap]

end Terms

end DirectConv.Regime
