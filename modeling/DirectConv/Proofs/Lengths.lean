import DirectConv.Proofs.Acceptance

/-!
# Lengths

The lengths a shape asks for are products, taken factor by factor. Of a valid shape no factor but
the first can be zero, so no partial product exceeds the product, and a length is computed exactly
if it fits a machine word. Otherwise computing it ends in an overflow. A buffer has at most
`Memory.limit` bytes, so the lengths fit as soon as there are buffers of these lengths.

## Main definitions

- `DirectConv.Shape.OutputFits`: the length of the output is a machine size
- `DirectConv.Shape.Fits`: all lengths a shape asks for are machine sizes

## Main statements

- `DirectConv.Shape.outputLength_of_fits`, `DirectConv.Shape.lengths_of_fits`: lengths that fit are
  computed
- `DirectConv.Shape.outputLength_overflow`, `DirectConv.Shape.lengths_overflow`: lengths that do not
  fit are not computed
- `DirectConv.Shape.Valid.fits`: the lengths of existing buffers fit
-/

namespace DirectConv

namespace Size

variable {factors : List Nat} {n : Nat} {fault : Fault}

theorem le_foldl_mul {factors : List Nat} (hpos : ∀ n ∈ factors, 0 < n) (acc : Nat) :
    acc ≤ factors.foldl (· * ·) acc := by
  induction factors generalizing acc with
  | nil => exact Nat.le_refl acc
  | cons n rest ih =>
    obtain ⟨hn, hrest⟩ := List.forall_mem_cons.1 hpos
    exact Nat.le_trans (Nat.le_mul_of_pos_right acc hn) (ih hrest (acc * n))

/-- A product that is a size has partial products that are sizes, unless a later factor is zero. -/
theorem product_ok {first : Nat} {rest : List Nat} (hpos : ∀ n ∈ rest, 0 < n)
    (h : rest.foldl (· * ·) first < bound) :
    product (first :: rest) = .ok (rest.foldl (· * ·) first) := by
  have hloop : ∀ acc, rest.foldl (· * ·) acc < bound →
      rest.foldlM (fun acc factor => check (acc * factor)) acc =
        .ok (rest.foldl (· * ·) acc) := by
    -- the partial products grow, so the last one bounds them all
    clear h
    induction rest with
    | nil => exact fun _ _ => rfl
    | cons n rest ih =>
      intro acc hacc
      obtain ⟨-, hrest⟩ := List.forall_mem_cons.1 hpos
      have hn : check (acc * n) = .ok (acc * n) :=
        check_of_lt (Nat.lt_of_le_of_lt (le_foldl_mul hrest _) hacc)
      rw [List.foldlM_cons, bind_of_eq_ok hn, ih hrest _ hacc, List.foldl_cons]
  have hfirst : check (1 * first) = .ok first := by
    rw [Nat.one_mul]
    exact check_of_lt (Nat.lt_of_le_of_lt (le_foldl_mul hpos _) h)
  rw [product, List.foldlM_cons, bind_of_eq_ok hfirst, hloop first h]

theorem check_eq_error (h : check n = .error fault) : fault = .sizeOverflow := by
  unfold check at h
  split at h
  · cases h
  · exact (Except.error.inj h).symm

theorem lt_of_product (h : product factors = .ok n) : n < bound := by
  have hloop : ∀ acc < bound,
      factors.foldlM (fun acc factor => check (acc * factor)) acc = .ok n → n < bound := by
    clear h
    induction factors with
    | nil =>
      intro acc hacc h
      exact Except.ok.inj h ▸ hacc
    | cons factor rest ih =>
      intro acc _ h
      obtain ⟨m, hm, hrest⟩ := foldlM_cons_eq_ok h
      obtain ⟨hlt, rfl⟩ := check_eq_ok_iff.1 hm
      exact ih _ hlt hrest
  exact hloop 1 (by decide) h

theorem product_eq_error (h : product factors = .error fault) : fault = .sizeOverflow := by
  unfold product at h
  generalize 1 = acc at h
  induction factors generalizing acc with
  | nil => cases h
  | cons factor rest ih =>
    rcases bind_eq_error_iff.1 h with hcheck | ⟨m, -, hrest⟩
    · exact check_eq_error hcheck
    · exact ih m hrest

theorem windowStarts_eq_error {extent window : Nat}
    (h : windowStarts extent window = .error fault) : fault = .sizeOverflow := by
  rcases bind_eq_error_iff.1 h with hcheck | ⟨past, -, hwindow⟩
  · exact check_eq_error hcheck
  · split at hwindow
    · cases hwindow
    · exact (Except.error.inj hwindow).symm

end Size

namespace Shape

variable {shape : Shape} {filter : FilterSize}

/-- The length of the output is a machine size, and so are the numbers it is computed from. -/
structure OutputFits (shape : Shape) : Prop where
  height : shape.height + 1 < Size.bound
  width : shape.width + 1 < Size.bound
  output : shape.outputSize < Size.bound

/-- All lengths a shape asks for are machine sizes, and so are the numbers they are computed
from. -/
structure Fits (shape : Shape) : Prop extends shape.OutputFits where
  input : shape.inputSize < Size.bound
  filter : shape.filterSize < Size.bound

/-! ### Lengths that fit -/

theorem Valid.windowStarts_height (hshape : shape.Valid filter)
    (h : shape.height + 1 < Size.bound) :
    Size.windowStarts shape.height shape.side = .ok shape.outHeight :=
  Size.windowStarts_eq_ok_iff.2
    ⟨h, hshape.side_eq ▸ Nat.le_succ_of_le hshape.side_le_height, rfl⟩

theorem Valid.windowStarts_width (hshape : shape.Valid filter) (h : shape.width + 1 < Size.bound) :
    Size.windowStarts shape.width shape.side = .ok shape.outWidth :=
  Size.windowStarts_eq_ok_iff.2
    ⟨h, hshape.side_eq ▸ Nat.le_succ_of_le hshape.side_le_width, rfl⟩

theorem Valid.product_input (hshape : shape.Valid filter) (h : shape.inputSize < Size.bound) :
    Size.product [shape.channels, shape.height, shape.width] = .ok shape.inputSize := by
  have hside_pos := filter.side_pos
  have hheight : 0 < shape.height := Nat.lt_of_lt_of_le hside_pos hshape.side_le_height
  have hwidth : 0 < shape.width := Nat.lt_of_lt_of_le hside_pos hshape.side_le_width
  exact Size.product_ok (by simp [hheight, hwidth]) h

theorem Valid.product_filter (hshape : shape.Valid filter) (h : shape.filterSize < Size.bound) :
    Size.product [shape.outputs, shape.channels, shape.side, shape.side] =
      .ok shape.filterSize :=
  Size.product_ok (by simp [hshape.channels_pos, hshape.side_eq, filter.side_pos]) h

theorem Valid.product_output (hshape : shape.Valid filter) (h : shape.outputSize < Size.bound) :
    Size.product [shape.outputs, shape.outHeight, shape.outWidth] = .ok shape.outputSize :=
  Size.product_ok (by simp [hshape.outHeight_pos, hshape.outWidth_pos]) h

theorem outputLength_of_fits (hshape : shape.Valid filter) (h : shape.OutputFits) :
    shape.outputLength = .ok shape.outputSize := by
  rw [outputLength, bind_of_eq_ok (hshape.windowStarts_height h.height),
    bind_of_eq_ok (hshape.windowStarts_width h.width)]
  exact hshape.product_output h.output

theorem lengths_of_fits (hshape : shape.Valid filter) (h : shape.Fits) :
    shape.lengths = .ok ⟨shape.outHeight, shape.outWidth, shape.inputSize, shape.filterSize,
      shape.outputSize⟩ := by
  rw [lengths, bind_of_eq_ok (hshape.product_input h.input),
    bind_of_eq_ok (hshape.product_filter h.filter),
    bind_of_eq_ok (hshape.windowStarts_height h.height),
    bind_of_eq_ok (hshape.windowStarts_width h.width),
    bind_of_eq_ok (outputLength_of_fits hshape h.toOutputFits)]
  rfl

/-- The lengths fit if buffers of these lengths exist. -/
theorem Valid.fits (hshape : shape.Valid filter) (hinput : shape.inputSize ≤ Memory.limit)
    (hfilter : shape.filterSize ≤ Memory.limit) (houtput : shape.outputSize ≤ Memory.limit) :
    shape.Fits := by
  have hlimit : Memory.limit + 1 < Size.bound := by decide
  have hheight := hshape.height_le_inputSize
  have hwidth := hshape.width_le_inputSize
  exact ⟨⟨by omega, by omega, by omega⟩, by omega, by omega⟩

/-! ### Lengths that do not fit -/

/-- A length of the output that was computed fits. -/
theorem fits_of_outputLength {length : Nat} (h : shape.outputLength = .ok length) :
    shape.OutputFits := by
  obtain rfl := outputLength_exact h
  simp only [outputLength, bind_eq_ok_iff] at h
  obtain ⟨rows, hrows, columns, hcolumns, houtput⟩ := h
  exact ⟨(Size.windowStarts_eq_ok_iff.1 hrows).1, (Size.windowStarts_eq_ok_iff.1 hcolumns).1,
    Size.lt_of_product houtput⟩

/-- Computing the length of the output can fail in no other way. -/
theorem outputLength_eq_error {fault : Fault} (h : shape.outputLength = .error fault) :
    fault = .sizeOverflow := by
  simp only [outputLength, bind_eq_error_iff] at h
  obtain hrows | ⟨_, -, hcolumns | ⟨_, -, houtput⟩⟩ := h
  · exact Size.windowStarts_eq_error hrows
  · exact Size.windowStarts_eq_error hcolumns
  · exact Size.product_eq_error houtput

theorem outputLength_overflow (h : ¬ shape.OutputFits) :
    shape.outputLength = .error .sizeOverflow := by
  cases hlength : shape.outputLength with
  | ok length => exact absurd (fits_of_outputLength hlength) h
  | error fault => rw [outputLength_eq_error hlength]

/-- Lengths that were computed fit. -/
theorem fits_of_lengths {lengths : Lengths} (h : shape.lengths = .ok lengths) : shape.Fits := by
  obtain rfl := lengths_exact h
  simp only [Shape.lengths, bind_eq_ok_iff] at h
  obtain ⟨input, hinput, filter, hfilter, _, -, _, -, output, houtput, h⟩ := h
  obtain ⟨-, -, rfl, rfl, rfl⟩ := Lengths.mk.inj (Except.ok.inj h)
  exact ⟨fits_of_outputLength houtput, Size.lt_of_product hinput, Size.lt_of_product hfilter⟩

theorem lengths_overflow (h : ¬ shape.Fits) : shape.lengths = .error .sizeOverflow := by
  cases hlengths : shape.lengths with
  | ok lengths => exact absurd (fits_of_lengths hlengths) h
  | error fault =>
    -- none of the five computations can fail in another way
    simp only [Shape.lengths, bind_eq_error_iff] at hlengths
    obtain hinput | ⟨_, -, hfilter | ⟨_, -, hrows | ⟨_, -, hcolumns | ⟨_, -, houtput |
      ⟨_, -, hdone⟩⟩⟩⟩⟩ := hlengths
    · rw [Size.product_eq_error hinput]
    · rw [Size.product_eq_error hfilter]
    · rw [Size.windowStarts_eq_error hrows]
    · rw [Size.windowStarts_eq_error hcolumns]
    · rw [outputLength_eq_error houtput]
    · cases hdone

end Shape

end DirectConv
