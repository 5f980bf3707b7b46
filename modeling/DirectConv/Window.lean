import DirectConv.Buffer
import DirectConv.Element
import DirectConv.Shape

/-!
# Window sums

The convolution by its definition: every output element is the sum over one window of the input.
There is no tile, block or register; one element is computed after the other. Two orders of the
terms of a window are of interest. The textbook order goes through the channels first and starts
from zero. The canonical order goes through the filter rows first and starts from the first
product; it is the order in which the engine adds the terms of an output element.

No condition is put on the shape or on the buffers: the result is a fault exactly if an element is
needed that does not exist, or the output has no room in memory.

## Main definitions

- `DirectConv.Window.textbookTerm`, `DirectConv.Window.canonicalTerm`: the terms of a window in
  their order
- `DirectConv.Window.textbook`: the convolution with textbook order
- `DirectConv.Window.canonical`: the convolution with canonical order

## Main statements

- `DirectConv.Window.textbookTerm_eq`, `DirectConv.Window.canonicalTerm_eq`,
  `DirectConv.Window.position_eq`: the numbers of terms and elements

## Design notes

Terms and output elements are numbered, and a number is split into coordinates when its turn comes.
So a shape with a huge dimension costs nothing where another one makes the product of both zero, or
where the buffers end early.
-/

namespace DirectConv.Window

/-- A term of a window sum: a channel and a position of the filter. -/
structure Term where
  channel : Nat
  row : Nat
  column : Nat
  deriving DecidableEq

/-- The number of terms of a window. -/
def termCount (shape : Shape) : Nat := shape.channels * (shape.side * shape.side)

/-- Term number `t` by channel, filter row and filter column. -/
def textbookTerm (shape : Shape) (t : Nat) : Term where
  channel := t / (shape.side * shape.side)
  row := t / shape.side % shape.side
  column := t % shape.side

/-- Term number `t` by filter row, channel and filter column. -/
def canonicalTerm (shape : Shape) (t : Nat) : Term where
  channel := t / shape.side % shape.channels
  row := t / (shape.channels * shape.side)
  column := t % shape.side

/-- An element of the output. -/
structure Position where
  filter : Nat
  row : Nat
  column : Nat
  deriving DecidableEq

/-- Element number `p` of an output whose planes have `rows` rows and `columns` columns. -/
def position (rows columns p : Nat) : Position where
  filter := p / (rows * columns)
  row := p / columns % rows
  column := p % columns

/-- Where the input element of a term stands. -/
def inputIndex (shape : Shape) (position : Position) (term : Term) : Nat :=
  (term.channel * shape.height + position.row + term.row) * shape.width + position.column +
    term.column

/-- Where the weight of a term stands. -/
def weightIndex (shape : Shape) (position : Position) (term : Term) : Nat :=
  ((position.filter * shape.channels + term.channel) * shape.side + term.row) * shape.side +
    term.column

variable {α : Type}

/-- The element of a buffer at an index. -/
def fetch (buffer : Array α) (index : Nat) : Except Fault α :=
  match buffer[index]? with
  | some x => .ok x
  | none => .error .outOfRange

/-- The two factors of a term. -/
def factors (input weights : Array α) (shape : Shape) (position : Position) (term : Term) :
    Except Fault (α × α) := do
  let x ← fetch input (inputIndex shape position term)
  let weight ← fetch weights (weightIndex shape position term)
  return (x, weight)

variable [MacElement α]

/-- The sum of products that starts from zero. -/
def sumFromZero (products : List (α × α)) : α :=
  products.foldl (fun acc p => MacElement.mac acc p.1 p.2) MacElement.zero

/-- The sum of products that starts from the first product. -/
def sumFromFirst : List (α × α) → α
  | [] => MacElement.zero
  | p :: rest => rest.foldl (fun acc p => MacElement.mac acc p.1 p.2) (MacElement.mul p.1 p.2)

/-- The output element at a position, whose terms are numbered by `term` and summed by `sum`. -/
def sumAt (term : Nat → Term) (sum : List (α × α) → α) (input weights : Array α) (shape : Shape)
    (position : Position) : Except Fault α := do
  let products ← Buffer.collect (termCount shape) fun t =>
    factors input weights shape position (term t)
  return sum products.toList

/-- The convolution whose terms are numbered by `term` and summed by `sum`. -/
def convolveBy (term : Nat → Term) (sum : List (α × α) → α) (input weights : Array α)
    (shape : Shape) : Except Fault (Array α) := do
  let rows ← Size.windowStarts shape.height shape.side
  let columns ← Size.windowStarts shape.width shape.side
  let count ← Size.product [shape.outputs, rows, columns]
  Memory.reserve count (MacElement.bytes α)
  Buffer.collect count fun p => sumAt term sum input weights shape (position rows columns p)

/-- The convolution by its definition: channel after channel, starting from zero. -/
def textbook (input weights : Array α) (shape : Shape) : Except Fault (Array α) :=
  convolveBy (textbookTerm shape) sumFromZero input weights shape

/-- The convolution with the terms in canonical order. -/
def canonical (input weights : Array α) (shape : Shape) : Except Fault (Array α) :=
  convolveBy (canonicalTerm shape) sumFromFirst input weights shape

theorem mul_add_div_of_lt {n r : Nat} (h : r < n) (q : Nat) : (q * n + r) / n = q := by
  rw [Nat.add_comm, Nat.add_mul_div_right _ _ (Nat.zero_lt_of_lt h), Nat.div_eq_of_lt h,
    Nat.zero_add]

theorem mul_add_mod_of_lt {n r : Nat} (h : r < n) (q : Nat) : (q * n + r) % n = r := by
  rw [Nat.add_comm, Nat.add_mul_mod_self_right, Nat.mod_eq_of_lt h]

/-- The terms of a window in textbook order are numbered by channel, filter row and filter
column. -/
theorem textbookTerm_eq {shape : Shape} {channel row column : Nat} (hrow : row < shape.side)
    (hcolumn : column < shape.side) :
    textbookTerm shape ((channel * shape.side + row) * shape.side + column) =
      { channel, row, column } := by
  simp only [textbookTerm, ← Nat.div_div_eq_div_mul, mul_add_div_of_lt hcolumn,
    mul_add_mod_of_lt hcolumn, mul_add_div_of_lt hrow, mul_add_mod_of_lt hrow]

/-- The terms of a window in canonical order are numbered by filter row, channel and filter
column. -/
theorem canonicalTerm_eq {shape : Shape} {channel row column : Nat}
    (hchannel : channel < shape.channels) (hcolumn : column < shape.side) :
    canonicalTerm shape ((row * shape.channels + channel) * shape.side + column) =
      { channel, row, column } := by
  simp only [canonicalTerm, Nat.mul_comm shape.channels, ← Nat.div_div_eq_div_mul,
    mul_add_div_of_lt hcolumn, mul_add_mod_of_lt hcolumn, mul_add_div_of_lt hchannel,
    mul_add_mod_of_lt hchannel]

/-- The elements of the output are numbered by filter, row and column. -/
theorem position_eq {rows columns filter row column : Nat} (hrow : row < rows)
    (hcolumn : column < columns) :
    position rows columns ((filter * rows + row) * columns + column) =
      { filter, row, column } := by
  simp only [position, Nat.mul_comm rows, ← Nat.div_div_eq_div_mul, mul_add_div_of_lt hcolumn,
    mul_add_mod_of_lt hcolumn, mul_add_div_of_lt hrow, mul_add_mod_of_lt hrow]

end DirectConv.Window
