import DirectConv.Tile
import Mathlib.Algebra.Order.Floor.Div

/-!
# Tilings

The strips of a row stay inside the row, read the input columns their output columns need, and
leave no column out. No two of them share a column, and only the last one can be narrower than a
register allows.

A cursor hands out the strips one after the other. It can be asked at any time how many are left,
and it can be asked for more strips than there are.

## Main definitions

- `DirectConv.Tile.Covers`: whether a strip computes a column
- `DirectConv.TileCursor.after`: a cursor that was asked for some strips
- `DirectConv.TileCursor.Partitions`: the strips divide the output row among them
- `DirectConv.TileCursor.HandsOut`: the strips a cursor hands out, and what it knows of their number

## Main statements

- `DirectConv.TileCursor.exists_covers`: every column to come belongs to a strip
- `DirectConv.TileCursor.start_ok`: a row that holds a window has a first strip
- `DirectConv.TileCursor.handsOut_toList`: a cursor hands out the strips that are to come
- `DirectConv.TileCursor.start_partitions`: the strips of a row divide it among them
-/

namespace DirectConv

/-- The strip computes column `col` of the output. -/
def Tile.Covers (tile : Tile) (col : Nat) : Prop :=
  tile.col ≤ col ∧ col < tile.col + tile.outWidth

instance (tile : Tile) (col : Nat) : Decidable (tile.Covers col) :=
  inferInstanceAs (Decidable (_ ∧ _))

namespace TileCursor

/-- Strips read what their columns need, fit a register and end inside the row. -/
theorem inside_of_mem {cursor : TileCursor} {tile : Tile} (h : tile ∈ cursor.toList) :
    tile.inWidth = tile.outWidth + cursor.carry ∧ tile.outWidth ≤ cursor.step ∧
      tile.col + tile.outWidth ≤ cursor.total := by
  fun_induction toList cursor with
  | case1 cursor hlt ih =>
    rcases List.mem_cons.1 h with rfl | hrest
    · refine ⟨rfl, Nat.min_le_left _ _, ?_⟩
      simp only [current]
      omega
    · exact ih hrest
  | case2 cursor hend => cases h

/-- No column is left out. -/
theorem exists_covers {cursor : TileCursor} {col : Nat} (hcol : cursor.col ≤ col)
    (htotal : col < cursor.total) : ∃ tile ∈ cursor.toList, tile.Covers col := by
  fun_induction toList cursor with
  | case1 cursor hlt ih =>
    by_cases hcurrent : col < cursor.col + min cursor.step (cursor.total - cursor.col)
    · exact ⟨cursor.current, List.mem_cons_self, hcol, hcurrent⟩
    · obtain ⟨tile, hmem, hcovers⟩ := ih (by simp only [advance]; omega) htotal
      exact ⟨tile, List.mem_cons_of_mem _ hmem, hcovers⟩
  | case2 cursor hend => omega

/-- The strips that are still to come are the columns still to come, divided and rounded up. -/
theorem remaining_eq_ceilDiv (cursor : TileCursor) :
    cursor.remaining = (cursor.total - cursor.col) ⌈/⌉ cursor.step := by
  have hstep := cursor.step_pos
  rw [remaining, Nat.ceilDiv_eq_add_pred_div]
  congr 1
  omega

/-- A row and a register that hold a window can be tiled. -/
theorem start_ok {width window lanes : Nat} (hwindow : 0 < window) (hwidth : window ≤ width)
    (hlanes : window ≤ lanes) (hwidth' : width + 1 < Size.bound)
    (hlanes' : lanes + 1 < Size.bound) :
    ∃ cursor, start width window lanes = .ok cursor ∧ cursor.total = width + 1 - window ∧
      cursor.step = lanes + 1 - window ∧ cursor.carry = window - 1 ∧ cursor.col = 0 := by
  have hstep : 0 < lanes + 1 - window := by omega
  refine ⟨⟨width + 1 - window, lanes + 1 - window, window - 1, 0, hstep, Nat.zero_le _⟩, ?_, rfl,
    rfl, rfl, rfl⟩
  have htotal : Size.windowStarts width window = .ok (width + 1 - window) :=
    Size.windowStarts_eq_ok_iff.2 ⟨hwidth', by omega, rfl⟩
  have hstarts : Size.windowStarts lanes window = .ok (lanes + 1 - window) :=
    Size.windowStarts_eq_ok_iff.2 ⟨hlanes', by omega, rfl⟩
  rw [start, htotal, hstarts]
  simp [require, hwindow, hwidth, hlanes, hstep, bind, Except.bind, pure, Except.pure]

theorem outWidth_pos_of_mem {cursor : TileCursor} {tile : Tile} (h : tile ∈ cursor.toList) :
    0 < tile.outWidth := by
  fun_induction toList cursor with
  | case1 cursor hlt ih =>
    rcases List.mem_cons.1 h with rfl | hrest
    · have hstep := cursor.step_pos
      simp only [current]
      omega
    · exact ih hrest
  | case2 cursor hend => cases h

theorem col_le_of_mem {cursor : TileCursor} {tile : Tile} (h : tile ∈ cursor.toList) :
    cursor.col ≤ tile.col := by
  fun_induction toList cursor with
  | case1 cursor hlt ih =>
    rcases List.mem_cons.1 h with rfl | hrest
    · exact Nat.le_refl _
    · exact Nat.le_trans (Nat.le_add_right _ _) (ih hrest)
  | case2 cursor hend => cases h

/-- A strip ends before the strips behind it begin. -/
theorem pairwise_toList (cursor : TileCursor) :
    cursor.toList.Pairwise fun tile next => tile.col + tile.outWidth ≤ next.col := by
  fun_induction toList cursor with
  | case1 cursor hlt ih =>
    refine List.pairwise_cons.2 ⟨?_, ih⟩
    intro next hnext
    exact col_le_of_mem hnext
  | case2 cursor hend => exact List.Pairwise.nil

/-- A strip that others follow has full width. -/
theorem outWidth_of_mem_dropLast {cursor : TileCursor} {tile : Tile}
    (h : tile ∈ cursor.toList.dropLast) : tile.outWidth = cursor.step := by
  fun_induction toList cursor with
  | case1 cursor hlt ih =>
    by_cases hmore : cursor.advance.col < cursor.advance.total
    · have hrest : cursor.advance.toList ≠ [] := by
        rw [toList, if_pos hmore]
        exact List.cons_ne_nil _ _
      rw [List.dropLast_cons_of_ne_nil hrest] at h
      rcases List.mem_cons.1 h with rfl | hrest
      · -- otherwise the strip would end where the row does
        simp only [advance] at hmore
        simp only [current]
        omega
      · exact ih hrest
    · rw [toList, if_neg hmore] at h
      cases h
  | case2 cursor hend => cases h

/-- The cursor after it was asked for a strip `count` times. -/
def after (cursor : TileCursor) : (count : Nat) → TileCursor
  | 0 => cursor
  | count + 1 => (cursor.after count).next?.2

/-- The strips a cursor hands out, and what it knows of their number: whenever it is asked, it hands
out the next one of `tiles`, and nothing once they are used up; before that it counts those that are
left. -/
structure HandsOut (cursor : TileCursor) (tiles : List Tile) : Prop where
  next_eq : ∀ count, (cursor.after count).next?.1 = tiles[count]?
  remaining_eq : ∀ count, (cursor.after count).remaining = tiles.length - count
  length_eq_ok : ∀ count, (cursor.after count).length = .ok (tiles.length - count)
  sizeHint_eq : ∀ count,
    (cursor.after count).sizeHint = (tiles.length - count, some (tiles.length - count))

theorem next?_toList (cursor : TileCursor) :
    cursor.next?.1 = cursor.toList.head? ∧ cursor.next?.2.toList = cursor.toList.tail := by
  rw [next?, toList]
  by_cases h : cursor.col < cursor.total
  · rw [if_pos h, if_pos h]
    exact ⟨rfl, rfl⟩
  · rw [if_neg h, if_neg h]
    refine ⟨rfl, ?_⟩
    rw [toList, if_neg h]
    rfl

/-- What is to come is what was to come before, without the strips that were handed out. -/
theorem toList_after (cursor : TileCursor) (count : Nat) :
    (cursor.after count).toList = cursor.toList.drop count := by
  induction count with
  | zero => rfl
  | succ count ih => rw [after, (next?_toList _).2, ih, List.tail_drop]

/-- A cursor hands out all strips that are to come, and nothing else. -/
theorem handsOut_toList (cursor : TileCursor) : cursor.HandsOut cursor.toList := by
  have hremaining (count : Nat) :
      (cursor.after count).remaining = cursor.toList.length - count := by
    rw [← length_toList, toList_after, List.length_drop]
  constructor
  · intro count
    rw [(next?_toList _).1, toList_after, List.head?_drop]
  · exact hremaining
  · intro count
    rw [length_eq, hremaining]
  · intro count
    rw [sizeHint, hremaining]

/-- The strips divide an output row among them, for windows of `window` columns in rows of `width`
columns and registers of `lanes` lanes. -/
structure Partitions (tiles : List Tile) (width window lanes : Nat) : Prop where
  length_eq : tiles.length = (width + 1 - window) ⌈/⌉ (lanes + 1 - window)
  nonempty : ∀ tile ∈ tiles, 0 < tile.outWidth
  /-- A strip reads what its columns need. -/
  inWidth_eq : ∀ tile ∈ tiles, tile.inWidth = tile.outWidth + window - 1
  inWidth_le : ∀ tile ∈ tiles, tile.inWidth ≤ lanes
  input_le : ∀ tile ∈ tiles, tile.col + tile.inWidth ≤ width
  /-- All strips but the last one fill a register. -/
  full : ∀ tile ∈ tiles.dropLast, tile.inWidth = lanes
  /-- The strips come in order and have no column in common. -/
  ordered : tiles.Pairwise fun tile next => tile.col + tile.outWidth ≤ next.col
  /-- The columns of the strips are all columns of the output row. -/
  covers_iff : ∀ col, (∃ tile ∈ tiles, tile.Covers col) ↔ col < width + 1 - window

/-- The strips of a row that holds a window, in registers that hold one, divide the row among them,
and the cursor hands out just these. -/
theorem start_partitions (width window lanes : Nat) (hwindow : 1 ≤ window)
    (hwidth : window ≤ width) (hlanes : window ≤ lanes) (hwidth' : width + 1 < Size.bound)
    (hlanes' : lanes + 1 < Size.bound) :
    ∃ cursor tiles, start width window lanes = .ok cursor ∧
      Partitions tiles width window lanes ∧ cursor.HandsOut tiles := by
  obtain ⟨cursor, hstart, htotal, hstep, hcarry, hcol⟩ :=
    start_ok hwindow hwidth hlanes hwidth' hlanes'
  refine ⟨cursor, cursor.toList, hstart, ?_, cursor.handsOut_toList⟩
  constructor
  case length_eq =>
    rw [length_toList, remaining_eq_ceilDiv, htotal, hstep, hcol, Nat.sub_zero]
  case nonempty => exact fun tile htile => outWidth_pos_of_mem htile
  case inWidth_eq =>
    intro tile htile
    have hinside := inside_of_mem htile
    omega
  case inWidth_le =>
    intro tile htile
    have hinside := inside_of_mem htile
    omega
  case input_le =>
    intro tile htile
    have hinside := inside_of_mem htile
    omega
  case full =>
    intro tile htile
    have hinside := inside_of_mem (List.mem_of_mem_dropLast htile)
    have hfull := outWidth_of_mem_dropLast htile
    omega
  case ordered => exact cursor.pairwise_toList
  case covers_iff =>
    intro col
    constructor
    · rintro ⟨tile, htile, hcovers⟩
      have hinside := inside_of_mem htile
      have hend := hcovers.2
      omega
    · intro hlt
      exact exists_covers (by omega) (by omega)

/-- Registers of five lanes hold three windows of three columns. The strips of a row of nine columns
are handed out, and nothing after them. -/
theorem start_partitions_nine_columns :
    1 ≤ 3 ∧ 3 ≤ 9 ∧ 3 ≤ 5 ∧ 9 + 1 < Size.bound ∧ 5 + 1 < Size.bound ∧
    ∃ (cursor : TileCursor) (tiles : List Tile), start 9 3 5 = .ok cursor ∧ tiles.length = 3 ∧
      (cursor.after 2).next?.1 = some ⟨6, 3, 1⟩ ∧ (cursor.after 2).length = .ok 1 ∧
      (cursor.after 3).next?.1 = none ∧ (cursor.after 7).length = .ok 0 ∧
      ∀ col, (∃ tile ∈ tiles, tile.Covers col) ↔ col < 7 := by
  refine ⟨by decide, by decide, by decide, by decide, by decide, ?_⟩
  obtain ⟨cursor, tiles, hstart, hpartitions, hhands⟩ :=
    start_partitions 9 3 5 (by decide) (by decide) (by decide) (by decide) (by decide)
  have hlength : tiles.length = 3 := hpartitions.length_eq
  refine ⟨cursor, tiles, hstart, hlength, ?_, ?_, ?_, ?_, hpartitions.covers_iff⟩
  · obtain rfl := Except.ok.inj hstart
    rfl
  · rw [hhands.length_eq_ok, hlength]
  · rw [hhands.next_eq, List.getElem?_eq_none (by omega)]
  · rw [hhands.length_eq_ok, hlength]

end TileCursor

end DirectConv
