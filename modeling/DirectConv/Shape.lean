import DirectConv.Rejection
import DirectConv.Size

/-!
# Shapes

A shape gives the dimensions of one convolution: an input of `channels × height × width` elements,
a bank of `outputs × channels × side × side` weights, and an output with one plane for each of the
`outputs` filters. Every window of `side × side` elements that lies inside the input plane yields
one output element.

## Main definitions

- `DirectConv.Shape`: the dimensions
- `DirectConv.Shape.outHeight`, `DirectConv.Shape.outWidth`: the dimensions of an output plane
- `DirectConv.Shape.inputSize`, `DirectConv.Shape.filterSize`, `DirectConv.Shape.outputSize`:
  the exact number of elements of each buffer
- `DirectConv.Shape.outputLength`, `DirectConv.Shape.lengths`: the same numbers as machine sizes
- `DirectConv.Shape.validate`, `DirectConv.Shape.checkBuffers`: what a request must satisfy

## Main statements

- `DirectConv.Shape.outputLength_exact`, `DirectConv.Shape.lengths_exact`: lengths that fit a
  machine word are the exact numbers

## Design notes

The exact numbers are what the theory speaks about. The checked numbers are what a request
computes; they agree wherever the checked ones exist.
-/

namespace DirectConv

/-- The dimensions of a convolution. -/
structure Shape where
  /-- Rows of an input plane. -/
  height : Nat
  /-- Columns of an input plane. -/
  width : Nat
  channels : Nat
  /-- Rows, and columns, of a filter. -/
  side : Nat
  outputs : Nat
  deriving DecidableEq

namespace Shape

/-- Rows of an output plane. -/
def outHeight (shape : Shape) : Nat := shape.height + 1 - shape.side

/-- Columns of an output plane. -/
def outWidth (shape : Shape) : Nat := shape.width + 1 - shape.side

/-- Elements of the input. -/
def inputSize (shape : Shape) : Nat := shape.channels * shape.height * shape.width

/-- Weights of the filter bank. -/
def filterSize (shape : Shape) : Nat := shape.outputs * shape.channels * shape.side * shape.side

/-- Elements of an output plane. -/
def planeSize (shape : Shape) : Nat := shape.outHeight * shape.outWidth

/-- Elements of the output. -/
def outputSize (shape : Shape) : Nat := shape.outputs * shape.outHeight * shape.outWidth

/-- The lengths a shape asks for, all of them machine sizes. -/
structure Lengths where
  outHeight : Nat
  outWidth : Nat
  input : Nat
  filter : Nat
  output : Nat
  deriving DecidableEq

/-- The length of the output, if it fits a machine word. -/
def outputLength (shape : Shape) : Except Fault Nat := do
  let outHeight ← Size.windowStarts shape.height shape.side
  let outWidth ← Size.windowStarts shape.width shape.side
  Size.product [shape.outputs, outHeight, outWidth]

/-- The lengths the shape asks for, as far as all of them fit a machine word. -/
def lengths (shape : Shape) : Except Fault Lengths := do
  let input ← Size.product [shape.channels, shape.height, shape.width]
  let filter ← Size.product [shape.outputs, shape.channels, shape.side, shape.side]
  let outHeight ← Size.windowStarts shape.height shape.side
  let outWidth ← Size.windowStarts shape.width shape.side
  let output ← shape.outputLength
  return { outHeight, outWidth, input, filter, output }

/-- The filter of the shape, if the filter is supported, fits the input, and has a channel to
read. -/
def validate (shape : Shape) : Except Rejection FilterSize := do
  let filter ← FilterSize.supported shape.side
  if shape.height < shape.side ∨ shape.width < shape.side then
    throw (.inputTooSmall shape.height shape.width filter)
  if shape.channels = 0 then throw .noChannel
  return filter

/-- Compare the lengths of the three buffers with those the shape asks for. The first buffer that
differs is reported. -/
def checkBuffers (shape : Shape) (input filter output : Nat) :
    Except Fault (Except Rejection Unit) := do
  let expected ← shape.lengths
  return if expected.input ≠ input then .error (.wrongLength .input expected.input input)
    else if expected.filter ≠ filter then .error (.wrongLength .filter expected.filter filter)
    else if expected.output ≠ output then .error (.wrongLength .output expected.output output)
    else .ok ()

theorem outputLength_exact {shape : Shape} {length : Nat} (h : shape.outputLength = .ok length) :
    length = shape.outputSize := by
  simp only [outputLength, bind_eq_ok_iff] at h
  obtain ⟨rows, hrows, columns, hcolumns, houtput⟩ := h
  obtain ⟨-, -, rfl⟩ := Size.windowStarts_eq_ok_iff.1 hrows
  obtain ⟨-, -, rfl⟩ := Size.windowStarts_eq_ok_iff.1 hcolumns
  rw [← Size.eq_foldl_of_product houtput]
  simp only [List.foldl_cons, List.foldl_nil, Nat.one_mul]
  rfl

/-- Lengths that fit a machine word are the exact ones. -/
theorem lengths_exact {shape : Shape} {lengths : Lengths} (h : shape.lengths = .ok lengths) :
    lengths = ⟨shape.outHeight, shape.outWidth, shape.inputSize, shape.filterSize,
      shape.outputSize⟩ := by
  simp only [Shape.lengths, bind_eq_ok_iff] at h
  obtain ⟨input, hinput, filter, hfilter, rows, hrows, columns, hcolumns, output, houtput, h⟩ := h
  obtain ⟨-, -, rfl⟩ := Size.windowStarts_eq_ok_iff.1 hrows
  obtain ⟨-, -, rfl⟩ := Size.windowStarts_eq_ok_iff.1 hcolumns
  rw [← Except.ok.inj h, ← Size.eq_foldl_of_product hinput, ← Size.eq_foldl_of_product hfilter,
    outputLength_exact houtput]
  simp only [List.foldl_cons, List.foldl_nil, Nat.one_mul]
  rfl

end Shape

end DirectConv
