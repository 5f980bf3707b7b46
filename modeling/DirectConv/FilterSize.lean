/-!
# Filter sizes

Filters are square with an odd side of at most seven.

## Main definitions

- `DirectConv.FilterSize`: the four supported sizes
- `DirectConv.FilterSize.ofSide?`: the size with a given side
- `DirectConv.FilterSize.carry`: how many rows stay unfinished between two row blocks
-/

namespace DirectConv

/-- The supported square filters. -/
inductive FilterSize where
  | one
  | three
  | five
  | seven
  deriving DecidableEq

namespace FilterSize

/-- All sizes, from the smallest to the largest. -/
def all : List FilterSize := [.one, .three, .five, .seven]

/-- The number of rows, and of columns, of the filter. -/
def side : FilterSize → Nat
  | one => 1
  | three => 3
  | five => 5
  | seven => 7

/-- The number of output rows an input row leaves unfinished. -/
def carry (size : FilterSize) : Nat := size.side - 1

/-- The number of weights the filter has for each channel. -/
def taps (size : FilterSize) : Nat := size.side * size.side

/-- The filter whose side is `n`, if it is supported. -/
def ofSide? : Nat → Option FilterSize
  | 1 => some one
  | 3 => some three
  | 5 => some five
  | 7 => some seven
  | _ => none

/-- The size as rows by columns. -/
def text (size : FilterSize) : String := s!"{size.side}x{size.side}"

/-- Choose a value for each size, from the smallest to the largest. -/
def pick {α : Type} (a b c d : α) : FilterSize → α
  | one => a
  | three => b
  | five => c
  | seven => d

theorem side_pos (size : FilterSize) : 0 < size.side := by
  cases size <;> decide

theorem carry_add_one (size : FilterSize) : size.carry + 1 = size.side := by
  cases size <;> rfl

theorem ofSide?_side (size : FilterSize) : ofSide? size.side = some size := by
  cases size <;> rfl

theorem side_of_ofSide? {n : Nat} {size : FilterSize} (h : ofSide? n = some size) :
    size.side = n := by
  unfold ofSide? at h
  split at h <;> simp_all [side] <;> subst h <;> rfl

end FilterSize

end DirectConv
