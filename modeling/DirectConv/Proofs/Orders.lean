import DirectConv.Proofs.Dot

/-!
# Two orders of the terms

The convolution by definition is given with two orders of the terms of a window. Both need the same
elements of the buffers, so they exist for the same shapes and buffers, whatever the product and the
sum of two elements are. Words can be added in any order, so for them the two are equal, and every
element is the exact sum of products, wrapped around once.

No shape is excluded: filters can have an even side or none at all, and a window without terms has
the sum zero.

## Main definitions

- `DirectConv.Window.Numbers`: a numbering of the terms of a window

## Main statements

- `DirectConv.Window.convolveBy_exists_iff`: when the convolution exists
- `DirectConv.Window.textbook_canonical`: the two orders agree
-/

namespace DirectConv.Window

open Finset

variable {shape : Shape}

/-- The numbers below `termCount` are the numbers of the terms of a window. -/
structure Numbers (shape : Shape) (term : Nat → Term) : Prop where
  inside : ∀ t < termCount shape, (term t).Inside shape
  exists_number : ∀ {inner : Term}, inner.Inside shape → ∃ t < termCount shape, term t = inner

theorem textbookTerm_numbers (shape : Shape) : Numbers shape (textbookTerm shape) := by
  constructor
  · intro t ht
    have hside : 0 < shape.side :=
      Nat.pos_of_mul_pos_left (Nat.pos_of_mul_pos_left (Nat.zero_lt_of_lt ht))
    exact ⟨Nat.div_lt_of_lt_mul (by rwa [Nat.mul_comm]), Nat.mod_lt _ hside, Nat.mod_lt _ hside⟩
  · intro inner hinner
    refine ⟨(inner.channel * shape.side + inner.row) * shape.side + inner.column, ?_, ?_⟩
    · rw [termCount, ← Nat.mul_assoc]
      exact mul_add_lt_mul (mul_add_lt_mul hinner.channel_lt hinner.row_lt) hinner.column_lt
    · exact textbookTerm_eq hinner.row_lt hinner.column_lt

theorem termCount_eq (shape : Shape) :
    termCount shape = shape.side * shape.channels * shape.side := by
  rw [termCount, Nat.mul_comm shape.side shape.channels, Nat.mul_assoc]

theorem canonicalTerm_numbers (shape : Shape) : Numbers shape (canonicalTerm shape) := by
  constructor
  · intro t ht
    rw [termCount_eq] at ht
    have hside : 0 < shape.side := Nat.pos_of_mul_pos_left (Nat.zero_lt_of_lt ht)
    have hchannels : 0 < shape.channels :=
      Nat.pos_of_mul_pos_left (Nat.pos_of_mul_pos_right (Nat.zero_lt_of_lt ht))
    refine ⟨Nat.mod_lt _ hchannels, Nat.div_lt_of_lt_mul ?_, Nat.mod_lt _ hside⟩
    rwa [Nat.mul_comm, ← Nat.mul_assoc]
  · intro inner hinner
    refine ⟨(inner.row * shape.channels + inner.channel) * shape.side + inner.column, ?_, ?_⟩
    · rw [termCount_eq]
      exact mul_add_lt_mul (mul_add_lt_mul hinner.row_lt hinner.channel_lt) hinner.column_lt
    · exact canonicalTerm_eq hinner.channel_lt hinner.column_lt

section Existence

variable {α : Type} {input weights : Array α} {term : Nat → Term}

theorem lt_of_fetch {buffer : Array α} {index : Nat} {x : α} (h : fetch buffer index = .ok x) :
    index < buffer.size := by
  by_contra hle
  rw [fetch, Array.getElem?_eq_none (Nat.le_of_not_lt hle)] at h
  cases h

theorem lt_of_factors {position : Position} {inner : Term} {p : α × α}
    (h : factors input weights shape position inner = .ok p) :
    inputIndex shape position inner < input.size ∧
      weightIndex shape position inner < weights.size := by
  simp only [factors, bind_eq_ok_iff] at h
  obtain ⟨x, hx, weight, hweight, -⟩ := h
  exact ⟨lt_of_fetch hx, lt_of_fetch hweight⟩

theorem exists_error_iff {x : Except Fault (Array α)} :
    (∃ fault, x = .error fault) ↔ ¬ ∃ result, x = .ok result := by
  cases x <;> simp

/-- A sum over a window has looked at all terms of the window. -/
theorem lt_of_sumAt (hterm : Numbers shape term) {sum : List (α × α) → α} {position : Position}
    {x : α} (h : sumAt term sum input weights shape position = .ok x) {inner : Term}
    (hinner : inner.Inside shape) :
    inputIndex shape position inner < input.size ∧
      weightIndex shape position inner < weights.size := by
  rw [sumAt, bind_eq_ok_iff] at h
  obtain ⟨products, hproducts, -⟩ := h
  obtain ⟨hsize, hfactors⟩ := Buffer.collect_eq_ok_iff.1 hproducts
  obtain ⟨t, ht, rfl⟩ := hterm.exists_number hinner
  exact lt_of_factors (hfactors t (hsize.symm ▸ ht))

variable [MacElement α]

/-- A convolution that exists has found everything it needs. -/
theorem defined_of_convolveBy (hterm : Numbers shape term) {sum : List (α × α) → α}
    {result : Array α} (h : convolveBy term sum input weights shape = .ok result) :
    Defined input weights shape := by
  simp only [convolveBy, bind_eq_ok_iff] at h
  obtain ⟨rows, hrows, columns, hcolumns, count, hcount, _, hreserve, hcollect⟩ := h
  obtain ⟨-, -, rfl⟩ := Size.windowStarts_eq_ok_iff.1 hrows
  obtain ⟨-, -, rfl⟩ := Size.windowStarts_eq_ok_iff.1 hcolumns
  have hexact : shape.outputSize = count := by
    rw [← Size.eq_foldl_of_product hcount]
    show shape.outputs * shape.outHeight * shape.outWidth = 1 * shape.outputs * _ * _
    rw [Nat.one_mul]
    rfl
  subst hexact
  obtain ⟨hsize, hsum⟩ := Buffer.collect_eq_ok_iff.1 hcollect
  have hlt {position : Position} {inner : Term} (hposition : position.Inside shape)
      (hinner : inner.Inside shape) : inputIndex shape position inner < input.size ∧
        weightIndex shape position inner < weights.size := by
    have hindex : outputIndex shape position < result.size := hsize ▸ outputIndex_lt hposition
    obtain ⟨x, hx⟩ : ∃ x, sumAt term sum input weights shape (Window.position shape.outHeight
        shape.outWidth (outputIndex shape position)) = .ok x := ⟨_, hsum _ hindex⟩
    rw [outputIndex, position_eq hposition.row_lt hposition.column_lt] at hx
    exact lt_of_sumAt hterm hx hinner
  exact ⟨hrows, hcolumns, hcount, Memory.reserve_eq_ok_iff.1 hreserve,
    fun hposition hinner => (hlt hposition hinner).1,
    fun hposition hinner => (hlt hposition hinner).2⟩

/-- The convolution exists if everything it needs does, whatever the order of the terms is. -/
theorem convolveBy_exists_iff (hterm : Numbers shape term) (sum : List (α × α) → α) :
    (∃ result, convolveBy term sum input weights shape = .ok result) ↔
      Defined input weights shape := by
  constructor
  · rintro ⟨result, h⟩
    exact defined_of_convolveBy hterm h
  · intro h
    exact ⟨_, convolveBy_of_defined h hterm.inside sum⟩

end Existence

section Words

variable {w : Nat} {input weights : Array (BitVec w)}

/-- For words it makes no difference whether a sum starts from zero or from the first product. -/
theorem sumFromFirst_eq_sumFromZero (products : List (BitVec w × BitVec w)) :
    sumFromFirst products = sumFromZero products := by
  cases products with
  | nil => rfl
  | cons p rest => simp [sumFromFirst, sumFromZero]

/-- The canonical sum of a window is its sum of products. -/
theorem sumFromFirst_canonical (input weights : Array (BitVec w)) (shape : Shape)
    (position : Position) :
    sumFromFirst ((List.range (termCount shape)).map fun t =>
        pair input weights shape position (canonicalTerm shape t)) =
      sumOf id id input weights shape position := by
  rw [sumFromFirst_eq_sumFromZero, sumFromZero_map_range, termCount_eq, sum_range_mul,
    sum_range_mul, sumOf_eq_sum_rows]
  refine sum_congr rfl fun row hrow => sum_congr rfl fun channel hchannel => ?_
  refine sum_congr rfl fun column hcolumn => ?_
  rw [canonicalTerm_eq (mem_range.1 hchannel) (mem_range.1 hcolumn)]
  rfl

theorem sumOf_toInt (position : Position) :
    sumOf id id input weights shape position =
      BitVec.ofInt w (sumOf BitVec.toInt BitVec.toInt input weights shape position) := by
  rw [← sumOf_ofInt]
  simp only [BitVec.ofInt_toInt]
  rfl

theorem sumOf_toNat (position : Position) :
    sumOf id id input weights shape position =
      BitVec.ofNat w (sumOf BitVec.toNat BitVec.toNat input weights shape position) := by
  rw [← sumOf_ofNat]
  simp only [BitVec.ofNat_toNat, BitVec.setWidth_eq]
  rfl

theorem textbook_of_defined (h : Defined input weights shape) :
    textbook input weights shape = .ok (Array.ofFn fun p : Fin shape.outputSize =>
      sumOf id id input weights shape (position shape.outHeight shape.outWidth p)) := by
  rw [textbook, convolveBy_of_defined h (textbookTerm_numbers shape).inside]
  simp only [sumFromZero_textbook]

theorem canonical_of_defined (h : Defined input weights shape) :
    canonical input weights shape = .ok (Array.ofFn fun p : Fin shape.outputSize =>
      sumOf id id input weights shape (position shape.outHeight shape.outWidth p)) := by
  rw [canonical, convolveBy_of_defined h (canonicalTerm_numbers shape).inside]
  simp only [sumFromFirst_canonical]

end Words

/-- With either order of the terms the convolution ends in a fault for the same shapes and buffers.
For words the two are equal where they exist, and their elements are the exact sums of products of
signed or of unsigned numbers, wrapped around once. -/
theorem textbook_canonical :
    (∀ {α : Type} [MacElement α] (input weights : Array α) (shape : Shape),
      (∃ fault, textbook input weights shape = .error fault) ↔
        ∃ fault, canonical input weights shape = .error fault) ∧
    ∀ {w : Nat} (input weights : Array (BitVec w)) (shape : Shape) (result : Array (BitVec w)),
      (textbook input weights shape = .ok result ↔ canonical input weights shape = .ok result) ∧
      (textbook input weights shape = .ok result →
        result.size = shape.outputSize ∧
        ∀ position : Position, position.Inside shape →
          result[outputIndex shape position]? = some (BitVec.ofInt w
            (sumOf BitVec.toInt BitVec.toInt input weights shape position)) ∧
          result[outputIndex shape position]? = some (BitVec.ofNat w
            (sumOf BitVec.toNat BitVec.toNat input weights shape position))) := by
  constructor
  · intro α _ input weights shape
    rw [exists_error_iff, exists_error_iff, textbook, canonical,
      convolveBy_exists_iff (textbookTerm_numbers shape),
      convolveBy_exists_iff (canonicalTerm_numbers shape)]
  · intro w input weights shape result
    constructor
    · constructor
      · intro h
        have hdefined := defined_of_convolveBy (textbookTerm_numbers shape) h
        rw [← h, textbook_of_defined hdefined, canonical_of_defined hdefined]
      · intro h
        have hdefined := defined_of_convolveBy (canonicalTerm_numbers shape) h
        rw [← h, textbook_of_defined hdefined, canonical_of_defined hdefined]
    · intro h
      rw [textbook_of_defined (defined_of_convolveBy (textbookTerm_numbers shape) h)] at h
      obtain rfl := Except.ok.inj h
      refine ⟨Array.size_ofFn, ?_⟩
      intro position hposition
      rw [getElem?_ofFn_position _ hposition]
      exact ⟨congrArg some (sumOf_toInt position), congrArg some (sumOf_toNat position)⟩

/-- A filter with an even side has a sum that wraps around, and a buffer that is too short is a
fault with either order. -/
theorem textbook_canonical_even_filter :
    canonical #[100#8, 100#8, 1#8, 1#8] #[1#8, 1#8, 1#8, 1#8] ⟨2, 2, 1, 2, 1⟩ = .ok #[202#8] ∧
    ∃ fault, canonical #[100#8, 100#8, 1#8] #[1#8, 1#8, 1#8, 1#8] ⟨2, 2, 1, 2, 1⟩ =
      .error fault := by
  obtain ⟨hfault, hwords⟩ := textbook_canonical
  constructor
  · exact (hwords _ _ _ _).1.1 rfl
  · exact (hfault _ _ _).1 ⟨.outOfRange, rfl⟩

end DirectConv.Window
