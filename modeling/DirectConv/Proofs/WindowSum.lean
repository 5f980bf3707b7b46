import DirectConv.Proofs.Lengths
import DirectConv.Window

/-!
# Window sums of existing buffers

Where every element that a window needs exists and the output has room, the convolution by
definition exists, and its elements are the sums of the terms of their windows. On buffers of the
lengths a valid shape asks for, nothing but room can be missing.

## Main definitions

- `DirectConv.Window.Defined`: everything the convolution by definition needs

## Main statements

- `DirectConv.Window.convolveBy_of_defined`: the elements of the convolution by definition
- `DirectConv.Window.convolveBy_ok`: the same on buffers of the right lengths
-/

namespace DirectConv

/-- A place in one part of a buffer is a place in the buffer. -/
theorem mul_add_lt_mul {parts size part i : Nat} (hpart : part < parts) (hi : i < size) :
    part * size + i < parts * size :=
  calc part * size + i < part * size + size := Nat.add_lt_add_left hi _
    _ = (part + 1) * size := (Nat.succ_mul _ _).symm
    _ ≤ parts * size := Nat.mul_le_mul_right _ hpart

theorem Buffer.collect_ok {α : Type} {f : Nat → Except Fault α} {g : Nat → α} {count : Nat}
    (h : ∀ i < count, f i = .ok (g i)) :
    collect count f = .ok (Array.ofFn fun i : Fin count => g i) := by
  refine collect_eq_ok_iff.2 ⟨Array.size_ofFn, fun i hi => ?_⟩
  rw [Array.getElem_ofFn]
  exact h i (by rwa [Array.size_ofFn] at hi)

namespace Window

theorem position_index {rows columns : Nat} (p : Nat) :
    ((position rows columns p).filter * rows + (position rows columns p).row) * columns +
      (position rows columns p).column = p := by
  simp only [position]
  rw [Nat.mul_comm rows columns, ← Nat.div_div_eq_div_mul, Nat.div_add_mod', Nat.div_add_mod']

/-- The position lies inside the output of the shape. -/
structure Position.Inside (position : Position) (shape : Shape) : Prop where
  filter_lt : position.filter < shape.outputs
  row_lt : position.row < shape.outHeight
  column_lt : position.column < shape.outWidth

/-- The term belongs to the windows of the shape. -/
structure Term.Inside (term : Term) (shape : Shape) : Prop where
  channel_lt : term.channel < shape.channels
  row_lt : term.row < shape.side
  column_lt : term.column < shape.side

variable {shape : Shape} {filter : FilterSize}

theorem position_inside {p : Nat} (hp : p < shape.outputSize) :
    (position shape.outHeight shape.outWidth p).Inside shape := by
  have hrows : 0 < shape.outputs * shape.outHeight :=
    Nat.pos_of_mul_pos_right (Nat.zero_lt_of_lt hp)
  have hcolumns : 0 < shape.outWidth := Nat.pos_of_mul_pos_left (Nat.zero_lt_of_lt hp)
  refine ⟨?_, ?_, ?_⟩
  · exact Nat.div_lt_of_lt_mul (by rwa [Nat.mul_comm, ← Nat.mul_assoc])
  · exact Nat.mod_lt _ (Nat.pos_of_mul_pos_left hrows)
  · exact Nat.mod_lt _ hcolumns

/-- Where the output element of a position stands. -/
def outputIndex (shape : Shape) (position : Position) : Nat :=
  (position.filter * shape.outHeight + position.row) * shape.outWidth + position.column

theorem outputIndex_lt {position : Position} (h : position.Inside shape) :
    outputIndex shape position < shape.outputSize :=
  mul_add_lt_mul (mul_add_lt_mul h.filter_lt h.row_lt) h.column_lt

/-- A buffer that is computed position by position. -/
theorem getElem?_ofFn_position {β : Type} (element : Position → β) {position : Position}
    (h : position.Inside shape) :
    (Array.ofFn fun p : Fin shape.outputSize =>
      element (Window.position shape.outHeight shape.outWidth p))[outputIndex shape position]? =
        some (element position) := by
  rw [Array.getElem?_ofFn, dif_pos (outputIndex_lt h)]
  exact congrArg (some <| element ·) (position_eq h.row_lt h.column_lt)

theorem side_pos (hshape : shape.Valid filter) : 0 < shape.side := by
  rw [hshape.side_eq]
  exact filter.side_pos

variable {position : Position} {term : Term}

theorem inputIndex_lt (hposition : position.Inside shape) (hterm : term.Inside shape) :
    inputIndex shape position term < shape.inputSize := by
  have hrow := hposition.row_lt
  have hcolumn := hposition.column_lt
  have hrow' := hterm.row_lt
  have hcolumn' := hterm.column_lt
  rw [Shape.outHeight] at hrow
  rw [Shape.outWidth] at hcolumn
  rw [inputIndex, Nat.add_assoc, Nat.add_assoc]
  exact mul_add_lt_mul (mul_add_lt_mul hterm.channel_lt (by omega)) (by omega)

theorem weightIndex_lt (hposition : position.Inside shape) (hterm : term.Inside shape) :
    weightIndex shape position term < shape.filterSize :=
  mul_add_lt_mul (mul_add_lt_mul (mul_add_lt_mul hposition.filter_lt hterm.channel_lt)
    hterm.row_lt) hterm.column_lt

section Sum

variable {α : Type} [MacElement α] {input weights : Array α}

/-- The factors of a term in buffers that hold zeros behind their ends. -/
def pair (input weights : Array α) (shape : Shape) (position : Position) (term : Term) : α × α :=
  (input.getD (inputIndex shape position term) MacElement.zero,
    weights.getD (weightIndex shape position term) MacElement.zero)

theorem fetch_ok {buffer : Array α} {index : Nat} (h : index < buffer.size) :
    fetch buffer index = .ok (buffer.getD index MacElement.zero) := by
  rw [fetch, Array.getElem?_eq_getElem h, Array.getD, dif_pos h]
  rfl

/-- Everything the convolution of a shape needs: sizes that fit a machine word, room for the output,
and an element of either buffer for every term of every window. -/
structure Defined (input weights : Array α) (shape : Shape) : Prop where
  rows_ok : Size.windowStarts shape.height shape.side = .ok shape.outHeight
  columns_ok : Size.windowStarts shape.width shape.side = .ok shape.outWidth
  count_ok : Size.product [shape.outputs, shape.outHeight, shape.outWidth] = .ok shape.outputSize
  room : shape.outputSize * MacElement.bytes α ≤ Memory.limit
  input_lt : ∀ {position : Position} {term : Term}, position.Inside shape → term.Inside shape →
    inputIndex shape position term < input.size
  weight_lt : ∀ {position : Position} {term : Term}, position.Inside shape → term.Inside shape →
    weightIndex shape position term < weights.size

theorem factors_ok (h : Defined input weights shape) (hposition : position.Inside shape)
    (hterm : term.Inside shape) :
    factors input weights shape position term = .ok (pair input weights shape position term) := by
  rw [factors, bind_of_eq_ok (fetch_ok (h.input_lt hposition hterm)),
    bind_of_eq_ok (fetch_ok (h.weight_lt hposition hterm))]
  rfl

theorem sumAt_ok (h : Defined input weights shape) (hposition : position.Inside shape)
    {term : Nat → Term} (hterm : ∀ t < termCount shape, (term t).Inside shape)
    (sum : List (α × α) → α) :
    sumAt term sum input weights shape position = .ok (sum
      ((List.range (termCount shape)).map fun t =>
        pair input weights shape position (term t))) := by
  have hproducts : Buffer.collect (termCount shape)
      (fun t => factors input weights shape position (term t)) = .ok _ :=
    Buffer.collect_ok fun t ht => factors_ok h hposition (hterm t ht)
  rw [sumAt, bind_of_eq_ok hproducts, Array.toList_ofFn]
  refine congrArg (fun products => Except.ok (sum products)) ?_
  exact List.ext_getElem (by simp) fun t _ _ => by simp

/-- The convolution by definition exists, and its elements are the sums of their windows. -/
theorem convolveBy_of_defined (h : Defined input weights shape) {term : Nat → Term}
    (hterm : ∀ t < termCount shape, (term t).Inside shape) (sum : List (α × α) → α) :
    convolveBy term sum input weights shape =
      .ok (Array.ofFn fun p : Fin shape.outputSize => sum
        ((List.range (termCount shape)).map fun t =>
          pair input weights shape (Window.position shape.outHeight shape.outWidth p)
            (term t))) := by
  have hreserve : Memory.reserve shape.outputSize (MacElement.bytes α) = .ok () :=
    Memory.reserve_eq_ok_iff.2 h.room
  rw [convolveBy, bind_of_eq_ok h.rows_ok, bind_of_eq_ok h.columns_ok, bind_of_eq_ok h.count_ok,
    bind_of_eq_ok hreserve]
  exact Buffer.collect_ok fun p hp => sumAt_ok h (position_inside hp) hterm sum

end Sum

end Window

end DirectConv
