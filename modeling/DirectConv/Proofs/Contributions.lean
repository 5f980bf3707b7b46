import DirectConv.Proofs.Canonical
import Mathlib.Algebra.BigOperators.Group.Finset.Basic

/-!
# The contributions to a cell

What a cell holds is shown by induction over the contributions it has received: the first one
replaces the cell, a further one is added to it, and after the columns of a group and the groups of
a row nothing is missing. If the cells of a regime can be read as values that every contribution
adds to, a finished cell has the value of the sum of all contributions.

## Main definitions

- `DirectConv.sumBefore`: the sum of the contributions before a place in the canonical order
- `DirectConv.Regime.Terms.Invariant`: what the contributions carry from place to place

## Main statements

- `DirectConv.Regime.Terms.Invariant.finished`: an invariant holds of the finished cell
- `DirectConv.Regime.Terms.value_cell`: the value of a finished cell
-/

namespace DirectConv

open Finset

section Sum

variable {S : Type} [AddCommMonoid S] (f : Nat → Nat → Nat → S) (groups side : Nat)

/-- The sum of the contributions `f` by row, group and column before a place. -/
def sumBefore (row group column : Nat) : S :=
  ∑ r ∈ range row, ∑ g ∈ range groups, ∑ c ∈ range side, f r g c +
    ∑ g ∈ range group, ∑ c ∈ range side, f row g c + ∑ c ∈ range column, f row group c

theorem sumBefore_start : sumBefore f groups side 0 0 1 = f 0 0 0 := by
  simp [sumBefore]

theorem sumBefore_column_succ (row group column : Nat) :
    sumBefore f groups side row group (column + 1) =
      sumBefore f groups side row group column + f row group column := by
  rw [sumBefore, sum_range_succ, ← add_assoc]
  rfl

theorem sumBefore_group_succ (row group : Nat) :
    sumBefore f groups side row (group + 1) 0 = sumBefore f groups side row group side := by
  rw [sumBefore, sum_range_succ, sum_range_zero, add_zero, ← add_assoc]
  rfl

theorem sumBefore_row_succ (row : Nat) :
    sumBefore f groups side (row + 1) 0 0 = sumBefore f groups side row groups 0 := by
  rw [sumBefore, sum_range_succ, sum_range_zero, sum_range_zero, add_zero]
  rfl

theorem sumBefore_end (rows : Nat) :
    sumBefore f groups side rows 0 0 =
      ∑ r ∈ range rows, ∑ g ∈ range groups, ∑ c ∈ range side, f r g c := by
  simp [sumBefore]

end Sum

namespace Regime.Terms

variable {R : Regime} (T : R.Terms) {filter : FilterSize} {groups : Nat}

/-- `P` holds of a cell whose next contribution is the one at the given place. Nothing is asked of a
cell that has received no contribution, since the first one replaces it. -/
def Reached (P : Nat → Nat → Nat → R.Cell → Prop) (row group column : Nat) (cell : R.Cell) : Prop :=
  (row = 0 ∧ group = 0 ∧ column = 0) ∨ P row group column cell

/-- Contributions, and the ends of groups and rows, carry `P` from one place to the next. -/
structure Invariant (T : R.Terms) (filter : FilterSize) (groups : Nat)
    (P : Nat → Nat → Nat → R.Cell → Prop) : Prop where
  first : P 0 0 1 (R.first (T.lane 0 0 0) (T.tap 0 0 0))
  later : ∀ {row group column cell}, row < filter.side → group < groups → column < filter.side →
    P row group column cell →
      P row group (column + 1) (R.later cell (T.lane row group column) (T.tap row group column))
  endGroup : ∀ {row group cell}, row < filter.side → group < groups → P row group filter.side cell →
    P row (group + 1) 0 (R.endGroup filter group groups cell)
  endRow : ∀ {row cell}, row < filter.side → P row groups 0 cell → P (row + 1) 0 0 cell

namespace Invariant

variable {T} {P : Nat → Nat → Nat → R.Cell → Prop} {row group column : Nat} {cell : R.Cell}

theorem step (hP : T.Invariant filter groups P) (hrow : row < filter.side) (hgroup : group < groups)
    (hcolumn : column < filter.side) (h : Reached P row group column cell) :
    P row group (column + 1) (T.step row group cell column) := by
  rw [Terms.step]
  split
  · rename_i hzero
    obtain ⟨rfl, rfl, rfl⟩ := hzero
    exact hP.first
  · rename_i hzero
    exact hP.later hrow hgroup hcolumn (h.resolve_left hzero)

theorem addGroup (hP : T.Invariant filter groups P) (hrow : row < filter.side)
    (hgroup : group < groups) (h : Reached P row group 0 cell) :
    P row (group + 1) 0 (T.addGroup filter groups row cell group) := by
  have hcolumns := foldl_range_induction (Reached P row group) h
    fun column hcolumn cell h => Or.inr (hP.step hrow hgroup hcolumn h)
  exact hP.endGroup hrow hgroup
    (hcolumns.resolve_left fun hzero => Nat.ne_of_gt filter.side_pos hzero.2.2)

theorem addRow (hP : T.Invariant filter groups P) (hgroups : 0 < groups) (hrow : row < filter.side)
    (h : Reached P row 0 0 cell) : P (row + 1) 0 0 (T.addRow filter groups cell row) := by
  have hfinished := foldl_range_induction (fun group => Reached P row group 0) h
    fun group hgroup cell h => Or.inr (hP.addGroup hrow hgroup h)
  exact hP.endRow hrow (hfinished.resolve_left fun hzero => Nat.ne_of_gt hgroups hzero.2.1)

/-- An invariant holds of the finished cell. -/
theorem finished (hP : T.Invariant filter groups P) (hgroups : 0 < groups) :
    P filter.side 0 0 (T.cell filter groups) := by
  -- the vacant cell is unknown to `P`, and nothing is asked of it
  have hrows := foldl_range_induction (fun row => Reached P row 0 0) (s := R.vacantCell.get)
    (Or.inl ⟨rfl, rfl, rfl⟩) fun row hrow cell h => Or.inr (hP.addRow hgroups hrow h)
  exact hrows.resolve_left fun hzero => Nat.ne_of_gt filter.side_pos hzero.1

end Invariant

/-- If every contribution adds `term` to the value of a cell, a finished cell has the value of their
sum. -/
theorem value_cell {S : Type} [AddCommMonoid S] (value : R.Cell → S) (term : R.Lane → R.Tap → S)
    (hgroups : 0 < groups) (hfirst : ∀ lane tap, value (R.first lane tap) = term lane tap)
    (hlater : ∀ cell lane tap, value (R.later cell lane tap) = value cell + term lane tap)
    (hend : ∀ group cell, value (R.endGroup filter group groups cell) = value cell) :
    value (T.cell filter groups) = ∑ row ∈ range filter.side, ∑ group ∈ range groups,
      ∑ column ∈ range filter.side, term (T.lane row group column) (T.tap row group column) := by
  rw [← sumBefore_end fun row group column =>
    term (T.lane row group column) (T.tap row group column)]
  refine Invariant.finished ⟨?_, ?_, ?_, ?_⟩ hgroups (P := fun row group column cell => value cell =
    sumBefore (fun row group column => term (T.lane row group column) (T.tap row group column))
      groups filter.side row group column)
  · rw [hfirst, sumBefore_start]
  · intro row group column cell _ _ _ h
    rw [hlater, h, sumBefore_column_succ]
  · intro row group cell _ _ h
    rw [hend, h, sumBefore_group_succ]
  · intro row cell _ h
    rw [h, sumBefore_row_succ]

end Regime.Terms

end DirectConv
