import DirectConv.Size

/-!
# Tiles

The columns of an output plane are computed in vertical strips. A strip of `outWidth` output
columns reads `outWidth + window - 1` input columns, so the widest strip is the one whose input
columns fill a register. Strips are as wide as possible from left to right; the last one takes the
columns that are left.

## Main definitions

- `DirectConv.Tile`: one strip
- `DirectConv.TileCursor`: the strips that are still to come
- `DirectConv.TileCursor.start`: the strips of a whole row
- `DirectConv.TileCursor.next?`: the next strip, and the strips after it
- `DirectConv.TileCursor.remaining`: how many strips are still to come
- `DirectConv.TileCursor.sizeHint`, `DirectConv.TileCursor.length`: the same as bounds, and as one
  number
- `DirectConv.TileCursor.toList`: all strips that are still to come

## Main statements

- `DirectConv.TileCursor.length_toList`: `remaining` counts the strips of `toList`
-/

namespace DirectConv

/-- A vertical strip of an output plane and the input columns it reads. -/
structure Tile where
  /-- The first column, of the input and of the output. -/
  col : Nat
  /-- How many input columns are read. -/
  inWidth : Nat
  /-- How many output columns are computed. -/
  outWidth : Nat
  deriving DecidableEq

/-- A position between two strips of a row. -/
structure TileCursor where
  /-- Columns of the whole output row. -/
  total : Nat
  /-- Columns of a strip of full width. -/
  step : Nat
  /-- Input columns a strip reads beyond its output columns. -/
  carry : Nat
  /-- The first column that no earlier strip covers. -/
  col : Nat
  step_pos : 0 < step
  /-- The cursor does not leave the row. -/
  col_le : col ≤ total

namespace TileCursor

/-- The strips of a row of `width` input columns, for windows of `window` columns and registers of
`lanes` lanes. Row and register must hold at least one window. -/
def start (width window lanes : Nat) : Except Fault TileCursor := do
  require (window ≤ width && window ≤ lanes) .brokenPrecondition
  let total ← Size.windowStarts width window
  let step ← Size.windowStarts lanes window
  require (0 < window) .sizeOverflow
  if h : 0 < step then
    return { total, step, carry := window - 1, col := 0, step_pos := h, col_le := Nat.zero_le _ }
  else .error .brokenPrecondition

/-- The strip at the cursor. -/
def current (cursor : TileCursor) : Tile :=
  let outWidth := min cursor.step (cursor.total - cursor.col)
  { col := cursor.col, inWidth := outWidth + cursor.carry, outWidth }

/-- The cursor behind the current strip. -/
def advance (cursor : TileCursor) : TileCursor :=
  { cursor with
    col := cursor.col + min cursor.step (cursor.total - cursor.col)
    col_le := by have := cursor.col_le; omega }

/-- The next strip, if there is one, and the cursor behind it. -/
def next? (cursor : TileCursor) : Option Tile × TileCursor :=
  if cursor.col < cursor.total then (some cursor.current, cursor.advance) else (none, cursor)

/-- How many strips are still to come. -/
def remaining (cursor : TileCursor) : Nat :=
  (cursor.total - cursor.col + (cursor.step - 1)) / cursor.step

/-- A lower and an upper bound for the number of strips that are still to come. -/
def sizeHint (cursor : TileCursor) : Nat × Option Nat := (cursor.remaining, some cursor.remaining)

/-- The number of strips that are still to come, provided that both bounds agree. -/
def length (cursor : TileCursor) : Except Fault Nat := do
  let (least, most) := cursor.sizeHint
  require (most == some least) .brokenPrecondition
  return least

/-- All strips that are still to come, from left to right. -/
def toList (cursor : TileCursor) : List Tile :=
  if cursor.col < cursor.total then cursor.current :: cursor.advance.toList else []
termination_by cursor.total - cursor.col
decreasing_by
  have := cursor.step_pos
  simp only [advance]
  omega

theorem remaining_eq_zero {cursor : TileCursor} (h : ¬ cursor.col < cursor.total) :
    cursor.remaining = 0 := by
  have := cursor.step_pos
  rw [remaining, Nat.div_eq_zero_iff]
  omega

theorem remaining_advance {cursor : TileCursor} (h : cursor.col < cursor.total) :
    cursor.remaining = cursor.advance.remaining + 1 := by
  have hstep := cursor.step_pos
  simp only [remaining, advance]
  by_cases hlast : cursor.total - cursor.col ≤ cursor.step
  · rw [Nat.min_eq_right hlast,
      show cursor.total - (cursor.col + (cursor.total - cursor.col)) = 0 by omega,
      Nat.zero_add, Nat.div_eq_of_lt (show cursor.step - 1 < cursor.step by omega)]
    exact Nat.div_eq_of_lt_le (by omega) (by omega)
  · rw [Nat.min_eq_left (by omega), ← Nat.add_div_right _ hstep]
    congr 1
    omega

theorem length_eq (cursor : TileCursor) : cursor.length = .ok cursor.remaining := by
  simp [length, sizeHint, require, bind, Except.bind, pure, Except.pure]

/-- The count of the strips to come is the length of their list. -/
theorem length_toList (cursor : TileCursor) : cursor.toList.length = cursor.remaining := by
  fun_induction toList cursor with
  | case1 cursor h ih => rw [List.length_cons, ih, ← remaining_advance h]
  | case2 cursor h => rw [List.length_nil, remaining_eq_zero h]

end TileCursor

end DirectConv
